import Scaffold.Proofs.Console.Markup
import Scaffold.Proofs.Outcome
import Scaffold.Proofs.Text.Legible

namespace Scaffold

/-- No emoji has its code in the text. -/
def Console.CodeFree (console : Console) (t : Text) : Prop :=
  ∀ u, u <:+: t → console.isEmoji u = false

namespace Console.CodeFree

variable {console : Console} {t u : Text} {c : Char}

theorem of_infix (h : console.CodeFree u) (ht : t <:+: u) : console.CodeFree t :=
  fun v hv => h v (hv.trans ht)

theorem withEmojis_eq (h : console.CodeFree t) : console.withEmojis t = t :=
  console.withEmojis_eq t h

theorem of_count (h : t.count ':' < 2) : console.CodeFree t := by
  intro u hu
  refine Bool.eq_false_iff.2 fun hcode => ?_
  obtain ⟨word, rfl⟩ := console.isEmoji_shape u hcode
  have hcount := hu.sublist.count_le ':'
  rw [List.count_cons_self, List.count_append, List.count_singleton_self] at hcount
  omega

theorem append_plain (h : console.CodeFree t) (hcolon : ':' ∉ u) : console.CodeFree (u ++ t) := by
  induction u with
  | nil => exact h
  | cons c u ih =>
    obtain ⟨hc, hu⟩ := not_or.1 (mt List.mem_cons.2 hcolon)
    intro v hv
    rcases List.infix_cons_iff.1 hv with ⟨more, hmore⟩ | hv
    · refine Bool.eq_false_iff.2 fun hcode => ?_
      obtain ⟨word, rfl⟩ := console.isEmoji_shape v hcode
      exact hc (List.cons.inj hmore).1
    · exact ih hu v hv

theorem concat (h : console.CodeFree t) (hc : c ≠ ':') : console.CodeFree (t ++ [c]) := by
  intro v hv
  rcases List.infix_concat_iff.1 hv with hv | hv
  · refine Bool.eq_false_iff.2 fun hcode => ?_
    obtain ⟨word, rfl⟩ := console.isEmoji_shape v hcode
    rcases List.suffix_concat_iff.1 hv with hnil | ⟨before, heq, -⟩
    · cases hnil
    · have hlast := congrArg List.getLast? heq
      rw [List.getLast?_concat, ← List.cons_append, List.getLast?_concat] at hlast
      exact hc (Option.some.inj hlast).symm
  · exact h v hv

end Console.CodeFree

namespace Markup

open Console (Span Styled printed)

variable {console : Console} {t u body run : Text} {c : Char} {n : Nat} {p : Part}
  {ps qs : List Part} {tags others : List Tag} {s : Styled}

/-- The characters that some parts print after others that stand for themselves. -/
def shownText (console : Console) (run : Text) : List Part → Text
  | [] => plain console run
  | .char c :: rest => shownText console (run ++ [c]) rest
  | .tag backslashes body :: rest =>
    plain console run ++ List.replicate (backslashes / 2) '\\' ++
      (if backslashes % 2 = 1 then plain console ('[' :: (body ++ [']'])) else []) ++
        shownText console [] rest

/-- The tags that are open after a closing tag. -/
def closeTag? (console : Console) (name : Option Text) : List Tag → Option (List Tag)
  | [] => none
  | tag :: rest =>
    if closes name tag then if tag.fault? console = none then some rest else none
    else (closeTag? console name rest).map (tag :: ·)

def tagsAfterTag? (console : Console) (tags : List Tag) (body : Text) : Option (List Tag) :=
  match closingName? body with
  | some name => (closedName console name).toOption.bind fun name => closeTag? console name tags
  | none =>
    (readStyle console (tagName body)).toOption.map fun name => ⟨name, tagParameters body⟩ :: tags

def tagsAfterPart? (console : Console) (tags : List Tag) : Part → Option (List Tag)
  | .char _ => some tags
  | .tag backslashes body =>
    if backslashes % 2 = 1 then some tags else tagsAfterTag? console tags body

/-- The tags that are open after some parts, if nothing is wrong with theirs. -/
def opened? (console : Console) (tags : List Tag) (ps : List Part) : Option (List Tag) :=
  ps.foldlM (tagsAfterPart? console) tags

theorem opened?_cons (tags : List Tag) (p : Part) (ps : List Part) :
    opened? console tags (p :: ps) =
      (tagsAfterPart? console tags p).bind fun after => opened? console after ps :=
  List.foldlM_cons

theorem opened?_append (tags : List Tag) (ps qs : List Part) : opened? console tags (ps ++ qs) =
    (opened? console tags ps).bind fun after => opened? console after qs :=
  List.foldlM_append

theorem opened?_singleton (tags : List Tag) (p : Part) :
    opened? console tags [p] = tagsAfterPart? console tags p := by
  rw [opened?_cons]
  exact Option.bind_fun_some _

theorem opened?_of_forall (h : ∀ p ∈ ps, ∀ tags, tagsAfterPart? console tags p = some tags)
    (tags : List Tag) : opened? console tags ps = some tags := by
  induction ps with
  | nil => rfl
  | cons p ps ih =>
    obtain ⟨hp, hps⟩ := List.forall_mem_cons.1 h
    rw [opened?_cons, hp, Option.bind_some, ih hps]

theorem opened?_map_char (tags : List Tag) (t : Text) :
    opened? console tags (t.map .char) = some tags :=
  opened?_of_forall (List.forall_mem_map.2 fun _ _ _ => rfl) tags

theorem tagsAfterPart?_guarded (tags : List Tag) (p : Part) :
    tagsAfterPart? console tags p.guarded = some tags := by
  cases p with
  | char c => rfl
  | tag n body => exact if_pos (by omega)

theorem opened?_map_guarded (tags : List Tag) (ps : List Part) :
    opened? console tags (ps.map Part.guarded) = some tags :=
  opened?_of_forall (List.forall_mem_map.2 fun p _ tags => tagsAfterPart?_guarded tags p) tags

theorem closeTag?_append {name : Option Text} (h : closeTag? console name tags = some others)
    (below : List Tag) : closeTag? console name (tags ++ below) = some (others ++ below) := by
  induction tags generalizing others with
  | nil => cases h
  | cons tag rest ih =>
    rw [closeTag?] at h
    rw [List.cons_append, closeTag?]
    split
    · rename_i hcloses
      rw [if_pos hcloses] at h
      obtain ⟨hfault, heq⟩ := Option.ite_none_right_eq_some.1 h
      cases heq
      exact if_pos hfault
    · rename_i hcloses
      rw [if_neg hcloses] at h
      obtain ⟨after, hafter, rfl⟩ := Option.map_eq_some_iff.1 h
      rw [ih hafter]
      rfl

theorem exists_closeTag? {name : Text} (h : ∃ tag ∈ tags, tag.name = name)
    (hhandler : name.head? ≠ some '@') :
    ∃ others, closeTag? console (some name) tags = some others := by
  induction tags with
  | nil =>
    obtain ⟨tag, htag, -⟩ := h
    cases htag
  | cons other rest ih =>
    rw [closeTag?]
    split
    · rename_i hcloses
      have hname : name = other.name := of_decide_eq_true hcloses
      exact ⟨rest, if_pos (if_neg fun hfault => hhandler (hname ▸ hfault.1))⟩
    · rename_i hcloses
      obtain ⟨tag, htag, hname⟩ := h
      have hne : tag ≠ other := fun heq => hcloses (decide_eq_true (heq ▸ hname.symm))
      obtain ⟨others, hothers⟩ := ih ⟨tag, List.mem_of_ne_of_mem hne htag, hname⟩
      exact ⟨other :: others, by rw [hothers]; rfl⟩

theorem tagsAfterTag?_append (h : tagsAfterTag? console tags body = some others)
    (below : List Tag) :
    tagsAfterTag? console (tags ++ below) body = some (others ++ below) := by
  rw [tagsAfterTag?] at h ⊢
  split at h
  · obtain ⟨name, hname, h⟩ := Option.bind_eq_some_iff.1 h
    rw [hname]
    exact closeTag?_append h below
  · obtain ⟨name, hname, rfl⟩ := Option.map_eq_some_iff.1 h
    rw [hname]
    rfl

theorem tagsAfterPart?_append (h : tagsAfterPart? console tags p = some others)
    (below : List Tag) :
    tagsAfterPart? console (tags ++ below) p = some (others ++ below) := by
  cases p with
  | char c =>
    cases h
    rfl
  | tag n body =>
    rw [tagsAfterPart?] at h ⊢
    split
    · rename_i hodd
      rw [if_pos hodd] at h
      cases h
      rfl
    · rename_i hodd
      rw [if_neg hodd] at h
      exact tagsAfterTag?_append h below

theorem opened?_append_tags (h : opened? console tags ps = some others) (below : List Tag) :
    opened? console (tags ++ below) ps = some (others ++ below) := by
  induction ps generalizing tags with
  | nil =>
    cases h
    rfl
  | cons p ps ih =>
    rw [opened?_cons] at h ⊢
    obtain ⟨after, hafter, hrest⟩ := Option.bind_eq_some_iff.1 h
    rw [tagsAfterPart?_append hafter, Option.bind_some]
    exact ih hrest

theorem map_closed? (name : Option Text) (opened : List Opened) :
    ((closed? name opened).bind fun found =>
        if found.1.tag.fault? console = none then some (found.2.map Opened.tag) else none) =
      closeTag? console name (opened.map Opened.tag) := by
  induction opened with
  | nil => rfl
  | cons first rest ih =>
    rw [closed?, List.map_cons, closeTag?]
    split
    · rfl
    · rw [← ih, Option.bind_map, Option.map_bind]
      refine Option.bind_congr fun found _ => ?_
      dsimp only [Function.comp_apply]
      split <;> rfl

theorem map_afterTag (opened : List Opened) (body : Text) (position shown : Nat) :
    (afterTag console opened body position shown).toOption.map
        (fun after => after.2.map Opened.tag) =
      tagsAfterTag? console (opened.map Opened.tag) body := by
  rw [afterTag, tagsAfterTag?]
  cases closingName? body with
  | some name =>
    dsimp only
    cases closedName console name with
    | error e => rfl
    | ok name =>
      change _ = closeTag? console name _
      rw [← map_closed?]
      simp only [bind, Except.bind]
      cases closed? name opened with
      | none => rfl
      | some found =>
        obtain ⟨found, rest⟩ := found
        dsimp only [Option.bind_some]
        cases hfault : found.tag.fault? console with
        | none => rfl
        | some message => rfl
  | none =>
    dsimp only
    cases readStyle console (tagName body) with
    | error e => rfl
    | ok name => rfl

theorem map_fst_bind {x : Except Error (Text × List Span)}
    {f : Text × List Span → Except Error (Text × List Span)} (before : Text)
    (h : ∀ rest, ∃ spans, f rest = .ok (before ++ rest.1, spans)) :
    (x >>= f).toOption.map Prod.fst = (x.toOption.map Prod.fst).map (before ++ ·) := by
  cases x with
  | error e => rfl
  | ok rest =>
    obtain ⟨spans, hrest⟩ := h rest
    exact congrArg (fun result => (Except.toOption result).map Prod.fst) hrest

variable (console) in
/-- What parts print, and whether they can be printed. -/
theorem toOption_renderParts (position shown : Nat) (run : Text) (opened : List Opened)
    (ps : List Part) :
    (renderParts console position shown run opened ps).toOption.map Prod.fst =
      (opened? console (opened.map Opened.tag) ps).map fun _ => shownText console run ps := by
  induction ps generalizing position shown run opened with
  | nil => rfl
  | cons p rest ih =>
    cases p with
    | char c => exact ih (position + 1) shown (run ++ [c]) opened
    | tag n body =>
      rw [renderParts, opened?_cons, tagsAfterPart?, shownText]
      let before := plain console run ++ List.replicate (n / 2) '\\'
      split
      · refine (map_fst_bind (before ++ plain console ('[' :: (body ++ [']'])))
          fun rest => ⟨rest.2, rfl⟩).trans ?_
        rw [ih, Option.map_map, Option.bind_some]
        rfl
      · rw [← map_afterTag opened body (position + n) (shown + before.length)]
        dsimp only
        cases afterTag console opened body (position + n) (shown + before.length) with
        | error e => rfl
        | ok after =>
          refine (map_fst_bind before fun rest => ⟨after.1 ++ rest.2, rfl⟩).trans ?_
          rw [ih, Option.map_map, List.append_nil]
          rfl

variable (console) in
theorem toOption_render (t : Text) : (render console t).toOption.map Styled.text =
    (opened? console [] (parts t)).map fun _ => shownText console [] (parts t) := by
  have h := toOption_renderParts console 0 0 [] [] (parts t)
  rw [List.map_nil] at h
  rw [← h, render]
  cases renderParts console 0 0 [] [] (parts t) with
  | error e => rfl
  | ok result => rfl

theorem text_of_render (h : render console t = .ok s) :
    s.text = shownText console [] (parts t) := by
  have hshown := toOption_render console t
  rw [h] at hshown
  obtain ⟨tags, -, heq⟩ := Option.map_eq_some_iff.1 hshown.symm
  exact heq.symm

theorem exists_render_iff : (∃ s, render console t = .ok s) ↔
    ∃ tags, opened? console [] (parts t) = some tags := by
  have hshown := toOption_render console t
  constructor
  · rintro ⟨s, hs⟩
    rw [hs] at hshown
    obtain ⟨tags, htags, -⟩ := Option.map_eq_some_iff.1 hshown.symm
    exact ⟨tags, htags⟩
  · rintro ⟨tags, htags⟩
    rw [htags] at hshown
    obtain ⟨s, hs, -⟩ := Option.map_eq_some_iff.1 hshown
    exact ⟨s, Outcome.eq_ok_of_toOption hs⟩

theorem exists_render_concat (h : ∃ s, render console t = .ok s) (hopening : c ≠ '[')
    (hclosing : c ≠ ']') : ∃ s, render console (t ++ [c]) = .ok s := by
  obtain ⟨tags, htags⟩ := exists_render_iff.1 h
  refine exists_render_iff.2 ⟨tags, ?_⟩
  rw [((reads_parts t).concat hopening hclosing).parts_eq, opened?_append, htags]
  rfl

theorem unescaped_eq (h : ¬ ['\\', '['] <:+: t) : unescaped t = t := by
  induction t using unescaped.induct with
  | case1 rest ih => exact absurd (List.prefix_append _ rest).isInfix h
  | case2 c rest hc ih =>
    rw [unescaped, ih fun hmem => h (List.infix_cons hmem)]
    exact hc
  | case3 => rfl

theorem plain_eq (h : console.CodeFree t) (hescaped : ¬ ['\\', '['] <:+: t) :
    plain console t = printed t := by
  rw [plain, unescaped_eq hescaped, h.withEmojis_eq]

theorem plain_nil (console : Console) : plain console [] = [] :=
  plain_eq (.of_count (by decide)) (by decide)

theorem shownText_map_char (console : Console) (run t : Text) :
    shownText console run (t.map .char) = plain console (run ++ t) := by
  induction t generalizing run with
  | nil => rw [List.append_nil]; rfl
  | cons c rest ih =>
    rw [List.map_cons, shownText, ih, List.append_assoc]
    rfl

theorem shownText_append_tag (console : Console) (run : Text) (ps : List Part) (n : Nat)
    (body : Text) (qs : List Part) : shownText console run (ps ++ .tag n body :: qs) =
      shownText console run ps ++ shownText console [] (.tag n body :: qs) := by
  induction ps generalizing run with
  | nil =>
    rw [List.nil_append, shownText, shownText, shownText, plain_nil]
    simp
  | cons p ps ih =>
    cases p with
    | char c => exact ih (run ++ [c])
    | tag m other =>
      rw [List.cons_append, shownText, shownText, ih, ← List.append_assoc]

theorem printed_append (t u : Text) : printed (t ++ u) = printed t ++ printed u :=
  List.filter_append t u

theorem printed_replicate (n : Nat) :
    printed (List.replicate n '\\') = List.replicate n '\\' :=
  List.filter_replicate_of_pos (by decide)

theorem not_backslash_bracket (h : '[' ∉ body) :
    ¬ ['\\', '['] <:+: '[' :: (body ++ [']']) := by
  intro hmem
  rcases List.infix_cons_iff.1 hmem with ⟨more, hmore⟩ | hmem
  · exact absurd (List.cons.inj hmore).1 (by decide)
  · rcases List.mem_append.1 (hmem.subset (List.mem_cons_of_mem _ List.mem_cons_self)) with hb | hb
    · exact h hb
    · exact absurd hb (by decide)

theorem shownText_map_guarded (hrun : '\\' ∉ run) (hchars : .char '\\' ∉ ps)
    (hbodies : ∀ n body, .tag n body ∈ ps → '[' ∉ body)
    (hcode : console.CodeFree (run ++ ps.flatMap Part.written)) :
    shownText console run (ps.map Part.guarded) = printed (run ++ ps.flatMap Part.written) := by
  have hplain (h : console.CodeFree run) : plain console run = printed run :=
    plain_eq h fun hmem => hrun (hmem.subset List.mem_cons_self)
  induction ps generalizing run with
  | nil =>
    rw [List.flatMap_nil, List.append_nil] at hcode ⊢
    exact hplain hcode
  | cons p ps ih =>
    obtain ⟨hp, hps⟩ := not_or.1 (mt List.mem_cons.2 hchars)
    have hbodies' : ∀ n body, .tag n body ∈ ps → '[' ∉ body :=
      fun n body hmem => hbodies n body (List.mem_cons_of_mem _ hmem)
    rw [List.flatMap_cons, ← List.append_assoc] at hcode ⊢
    cases p with
    | char c =>
      have hc : '\\' ∉ run ++ [c] := by
        rw [List.mem_append, List.mem_singleton]
        rintro (hmem | rfl)
        · exact hrun hmem
        · exact hp rfl
      exact ih hc hps hbodies' hcode fun h => plain_eq h fun hmem =>
        hc (hmem.subset List.mem_cons_self)
    | tag n body =>
      have hhalf : (2 * n + 1) / 2 = n := by omega
      have hwritten : Part.written (.tag n body) =
          List.replicate n '\\' ++ '[' :: (body ++ [']']) := rfl
      have hbody : plain console ('[' :: (body ++ [']'])) = printed ('[' :: (body ++ [']'])) := by
        refine plain_eq (hcode.of_infix ?_)
          (not_backslash_bracket (hbodies n body List.mem_cons_self))
        rw [hwritten, ← List.append_assoc]
        exact ⟨run ++ List.replicate n '\\', _, rfl⟩
      have hrest := ih List.not_mem_nil hps hbodies'
        (hcode.of_infix (List.suffix_append _ _).isInfix) fun h => plain_nil console
      rw [List.map_cons, Part.guarded, shownText, if_pos (by omega), hhalf, hbody,
        hplain (hcode.of_infix (by rw [List.append_assoc]; exact (List.prefix_append _ _).isInfix)),
        hrest, hwritten, List.nil_append, printed_append, printed_append, printed_append,
        printed_replicate]
      simp only [List.append_assoc]

/-- A text without a tag and without a backslash right before an opening bracket. -/
structure Inert (t : Text) : Prop where
  tagless : ∀ body, IsBody body → ¬ writtenTag 0 body <:+: t
  unescaped : ¬ ['\\', '['] <:+: t

theorem Inert.of_infix (h : Inert u) (ht : t <:+: u) : Inert t where
  tagless body hbody hmem := h.tagless body hbody (hmem.trans ht)
  unescaped hmem := h.unescaped (hmem.trans ht)

theorem Inert.concat (h : Inert t) (hopening : c ≠ '[') (hclosing : c ≠ ']') :
    Inert (t ++ [c]) where
  tagless body hbody hmem := by
    rcases List.infix_concat_iff.1 hmem with hsuffix | hmem
    · have hlast : (writtenTag 0 body).getLast? = some ']' :=
        List.getLast?_concat (l := '[' :: body)
      rcases List.suffix_concat_iff.1 hsuffix with hnil | ⟨before, heq, -⟩
      · rw [hnil] at hlast
        cases hlast
      · rw [heq, List.getLast?_concat] at hlast
        exact hclosing (Option.some.inj hlast)
    · exact h.tagless body hbody hmem
  unescaped hmem := by
    rcases List.infix_concat_iff.1 hmem with hsuffix | hmem
    · rcases List.suffix_concat_iff.1 hsuffix with hnil | ⟨before, heq, -⟩
      · cases hnil
      · have hlast := congrArg List.getLast? heq
        rw [List.getLast?_concat] at hlast
        exact hopening (Option.some.inj hlast).symm
    · exact h.unescaped hmem

theorem Inert.append_plain (h : Inert t) (hbackslash : '\\' ∉ u) (hbracket : '[' ∉ u) :
    Inert (u ++ t) := by
  induction u with
  | nil => exact h
  | cons c u ih =>
    obtain ⟨hc, hu⟩ := not_or.1 (mt List.mem_cons.2 hbackslash)
    obtain ⟨hc', hu'⟩ := not_or.1 (mt List.mem_cons.2 hbracket)
    have hrest := ih hu hu'
    constructor
    · intro body hbody hmem
      rcases List.infix_cons_iff.1 hmem with ⟨more, hmore⟩ | hmem
      · exact hc' (List.cons.inj hmore).1
      · exact hrest.tagless body hbody hmem
    · intro hmem
      rcases List.infix_cons_iff.1 hmem with ⟨more, hmore⟩ | hmem
      · exact hc (List.cons.inj hmore).1
      · exact hrest.unescaped hmem

theorem inert_of_notMem (h : '[' ∉ t) : Inert t where
  tagless body _ hmem := h (hmem.subset (List.mem_append_right _ List.mem_cons_self))
  unescaped hmem := h (hmem.subset (by decide))

theorem Inert.tagAfterBackslashes? (h : Inert t) : tagAfterBackslashes? t = none := by
  rw [Option.eq_none_iff_forall_ne_some]
  rintro ⟨n, body⟩ hsome
  obtain ⟨hbody, rest, rfl⟩ := tagAfterBackslashes?_eq_some hsome
  refine h.tagless body hbody ⟨List.replicate n '\\', rest, ?_⟩
  simp [writtenTag]

theorem Inert.reads (h : Inert t) : Reads t (t.map .char) := by
  induction t with
  | nil => exact .nil
  | cons c rest ih =>
    have hrest : Inert rest := h.of_infix (List.infix_cons List.infix_rfl)
    exact .char h.tagAfterBackslashes? (ih hrest)

theorem Inert.parts_eq (h : Inert t) : parts t = t.map .char :=
  h.reads.parts_eq

theorem Reads.tagless (h : Reads t (t.map .char)) (hbody : IsBody body) :
    ¬ writtenTag 0 body <:+: t := by
  induction t with
  | nil =>
    intro hmem
    cases List.infix_nil.1 hmem
  | cons c rest ih =>
    obtain ⟨more, hcons, hplain, hrest⟩ := h.of_char
    cases hcons
    intro hmem
    rcases List.infix_cons_iff.1 hmem with ⟨more, hmore⟩ | hmem
    · rw [← hmore, tagAfterBackslashes?_writtenTag hbody] at hplain
      cases hplain
    · exact ih hrest hmem

theorem inert_iff : Inert t ↔ parts t = t.map .char ∧ ¬ ['\\', '['] <:+: t :=
  ⟨fun h => ⟨h.parts_eq, h.unescaped⟩, fun ⟨hparts, hescaped⟩ =>
    ⟨fun _ hbody => (hparts ▸ reads_parts t : Reads t (t.map .char)).tagless hbody, hescaped⟩⟩

instance (t : Text) : Decidable (Inert t) :=
  decidable_of_iff _ inert_iff.symm

theorem spans_of_chars {position shown : Nat} {spans : List Span} {u : Text}
    (h : renderParts console position shown run [] (t.map .char) = .ok (u, spans)) :
    spans = [] := by
  induction t generalizing position run with
  | nil =>
    cases h
    rfl
  | cons c rest ih => exact ih h

theorem Inert.exists_render (h : Inert t) (console : Console) :
    ∃ s, render console t = .ok s :=
  exists_render_iff.2 ⟨[], h.parts_eq ▸ opened?_map_char [] t⟩

/-- A text that prints as it is. -/
structure Verbatim (console : Console) (t : Text) : Prop where
  inert : Inert t
  legible : Text.Legible t
  codeFree : console.CodeFree t

theorem Verbatim.of_infix (h : Verbatim console u) (ht : t <:+: u) : Verbatim console t :=
  ⟨h.inert.of_infix ht, h.legible.of_sublist ht.sublist, h.codeFree.of_infix ht⟩

theorem Verbatim.plain_eq (h : Verbatim console t) : plain console t = t := by
  rw [Markup.plain_eq h.codeFree h.inert.unescaped, h.legible.printed_eq]

theorem Verbatim.render_eq (h : Verbatim console t) : render console t = .ok ⟨t, []⟩ := by
  obtain ⟨s, hs⟩ := h.inert.exists_render console
  have htext : s.text = t := by
    rw [text_of_render hs, h.inert.parts_eq, shownText_map_char, List.nil_append, h.plain_eq]
  have hspans : s.spans = [] := by
    obtain ⟨⟨text, spans⟩, hparts, heq⟩ := Outcome.bind_eq_ok.1 hs
    cases heq
    rw [h.inert.parts_eq] at hparts
    exact spans_of_chars hparts
  rw [hs, ← htext, ← hspans]

end Markup

end Scaffold
