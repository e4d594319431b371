import Mathlib.Data.List.Infix
import Scaffold.Console.Markup
import Scaffold.Proofs.Text.Basic

namespace Scaffold.Markup

/-- What can stand between the brackets of a tag. -/
structure IsBody (body : Text) : Prop where
  opens : body.head?.any opensTag = true
  opening : '[' ∉ body
  closing : ']' ∉ body

instance (body : Text) : Decidable (IsBody body) :=
  decidable_of_iff (body.head?.any opensTag = true ∧ '[' ∉ body ∧ ']' ∉ body)
    ⟨fun h => ⟨h.1, h.2.1, h.2.2⟩, fun h => ⟨h.opens, h.opening, h.closing⟩⟩

def writtenTag (backslashes : Nat) (body : Text) : Text :=
  List.replicate backslashes '\\' ++ '[' :: (body ++ [']'])

def Part.written : Part → Text
  | char c => [c]
  | tag backslashes body => writtenTag backslashes body

/-- The parts that a text is read as. -/
inductive Reads : Text → List Part → Prop
  | nil : Reads [] []
  | char {c : Char} {rest : Text} {ps : List Part}
      (plain : tagAfterBackslashes? (c :: rest) = none) (h : Reads rest ps) :
      Reads (c :: rest) (.char c :: ps)
  | tag {backslashes : Nat} {body rest : Text} {ps : List Part} (inside : IsBody body)
      (h : Reads rest ps) :
      Reads (writtenTag backslashes body ++ rest) (.tag backslashes body :: ps)

variable {t u body rest : Text} {c : Char} {n backslashes : Nat} {p : Part} {ps qs : List Part}

theorem untilBracket_append (hopening : '[' ∉ body) (hclosing : ']' ∉ body) (rest : Text) :
    untilBracket (body ++ ']' :: rest) = some body := by
  induction body with
  | nil => rfl
  | cons c body ih =>
    obtain ⟨hc, hbody⟩ := not_or.1 (mt List.mem_cons.2 hopening)
    obtain ⟨hc', hbody'⟩ := not_or.1 (mt List.mem_cons.2 hclosing)
    rw [List.cons_append, untilBracket, if_neg (Ne.symm hc'), if_neg (Ne.symm hc), ih hbody hbody']
    rfl

theorem untilBracket_eq_some (h : untilBracket t = some body) :
    '[' ∉ body ∧ ']' ∉ body ∧ ∃ rest, t = body ++ ']' :: rest := by
  induction t generalizing body with
  | nil => cases h
  | cons c t ih =>
    rw [untilBracket] at h
    split at h
    · rename_i hc
      cases h
      exact ⟨List.not_mem_nil, List.not_mem_nil, t, hc ▸ rfl⟩
    · rename_i hclosing
      split at h
      · cases h
      · rename_i hopening
        obtain ⟨body, hbody, rfl⟩ := Option.map_eq_some_iff.1 h
        obtain ⟨hnone, hnone', rest, rfl⟩ := ih hbody
        refine ⟨?_, ?_, rest, rfl⟩
        · exact List.not_mem_cons_of_ne_of_not_mem (Ne.symm hopening) hnone
        · exact List.not_mem_cons_of_ne_of_not_mem (Ne.symm hclosing) hnone'

theorem untilBracket_cons (hopening : c ≠ '[') (hclosing : c ≠ ']') (t : Text) :
    untilBracket (c :: t) = (untilBracket t).map (c :: ·) := by
  rw [untilBracket, if_neg hclosing, if_neg hopening]

theorem untilBracket_writtenTag (n : Nat) (body rest : Text) :
    untilBracket (writtenTag n body ++ rest) = none := by
  induction n with
  | zero => rfl
  | succ n ih =>
    have hcons : writtenTag (n + 1) body ++ rest = '\\' :: (writtenTag n body ++ rest) := rfl
    rw [hcons, untilBracket_cons (by decide) (by decide), ih]
    rfl

theorem ne_of_opensTag (h : opensTag c = true) : c ≠ '[' ∧ c ≠ ']' ∧ c ≠ '\\' := by
  refine ⟨?_, ?_, ?_⟩
  · rintro rfl
    exact absurd h (by decide)
  · rintro rfl
    exact absurd h (by decide)
  · rintro rfl
    exact absurd h (by decide)

theorem tagBody?_bracket (t : Text) :
    tagBody? ('[' :: t) = if t.head?.any opensTag then untilBracket t else none := by
  cases t with
  | nil => rfl
  | cons c rest =>
    rw [tagBody?, List.head?_cons, Option.any_some]
    split
    · rename_i hc
      obtain ⟨hopening, hclosing, -⟩ := ne_of_opensTag hc
      rw [untilBracket_cons hopening hclosing]
    · rfl

theorem tagBody?_of_ne (hc : c ≠ '[') (t : Text) : tagBody? (c :: t) = none := by
  unfold tagBody?
  split
  · rename_i heq
    exact absurd (List.cons.inj heq).1 hc
  · rfl

theorem tagBody?_eq_some :
    tagBody? t = some body ↔ IsBody body ∧ ∃ rest, t = '[' :: (body ++ ']' :: rest) := by
  constructor
  · intro h
    cases t with
    | nil => cases h
    | cons c t =>
      by_cases hc : c = '['
      · subst hc
        rw [tagBody?_bracket] at h
        split at h
        · rename_i hopens
          obtain ⟨hopening, hclosing, rest, rfl⟩ := untilBracket_eq_some h
          refine ⟨⟨?_, hopening, hclosing⟩, rest, rfl⟩
          cases body with
          | nil => exact absurd hopens (by simp [opensTag])
          | cons d body => exact hopens
        · cases h
      · rw [tagBody?_of_ne hc] at h
        cases h
  · rintro ⟨hbody, rest, rfl⟩
    have hopens : (body ++ ']' :: rest).head?.any opensTag = true := by
      cases body with
      | nil => exact absurd hbody.opens (by decide)
      | cons d body => exact hbody.opens
    rw [tagBody?_bracket, if_pos hopens, untilBracket_append hbody.opening hbody.closing]

theorem tagAfterBackslashes?_backslash (t : Text) : tagAfterBackslashes? ('\\' :: t) =
    (tagAfterBackslashes? t).map fun (n, body) => (n + 1, body) := by
  rw [tagAfterBackslashes?, tagAfterBackslashes?, List.dropWhile_cons_of_pos (by decide),
    List.takeWhile_cons_of_pos (by decide), Option.map_map]
  rfl

theorem tagAfterBackslashes?_cons (hc : c ≠ '\\') (t : Text) :
    tagAfterBackslashes? (c :: t) = (tagBody? (c :: t)).map fun body => (0, body) := by
  simp [tagAfterBackslashes?, hc]

theorem tagAfterBackslashes?_writtenTag (hbody : IsBody body) (n : Nat) (rest : Text) :
    tagAfterBackslashes? (writtenTag n body ++ rest) = some (n, body) := by
  induction n with
  | zero =>
    have htag : tagBody? (writtenTag 0 body ++ rest) = some body := by
      refine tagBody?_eq_some.2 ⟨hbody, rest, ?_⟩
      simp [writtenTag]
    have hcons : writtenTag 0 body ++ rest = '[' :: (body ++ [']'] ++ rest) := rfl
    rw [hcons] at htag ⊢
    rw [tagAfterBackslashes?_cons (by decide), htag]
    rfl
  | succ n ih =>
    have hcons : writtenTag (n + 1) body ++ rest = '\\' :: (writtenTag n body ++ rest) := rfl
    rw [hcons, tagAfterBackslashes?_backslash, ih]
    rfl

theorem tagAfterBackslashes?_eq_some (h : tagAfterBackslashes? t = some (n, body)) :
    IsBody body ∧ ∃ rest, t = writtenTag n body ++ rest := by
  induction t generalizing n with
  | nil => cases h
  | cons c t ih =>
    by_cases hc : c = '\\'
    · subst hc
      rw [tagAfterBackslashes?_backslash] at h
      obtain ⟨⟨m, other⟩, hsome, heq⟩ := Option.map_eq_some_iff.1 h
      cases heq
      obtain ⟨hbody, rest, rfl⟩ := ih hsome
      exact ⟨hbody, rest, rfl⟩
    · rw [tagAfterBackslashes?_cons hc] at h
      obtain ⟨other, hsome, heq⟩ := Option.map_eq_some_iff.1 h
      cases heq
      obtain ⟨hbody, rest, hrest⟩ := tagBody?_eq_some.1 hsome
      exact ⟨hbody, rest, hrest.trans (by simp [writtenTag])⟩

theorem length_writtenTag (n : Nat) (body : Text) :
    (writtenTag n body).length = n + body.length + 2 := by
  simp only [writtenTag, List.length_append, List.length_replicate, List.length_cons,
    List.length_nil]
  omega

theorem partsAfter_eq (skip : Nat) (t : Text) : partsAfter skip t = parts (t.drop skip) := by
  induction t generalizing skip with
  | nil =>
    rw [List.drop_nil]
    rfl
  | cons c rest ih =>
    cases skip with
    | zero => rfl
    | succ skip =>
      rw [partsAfter, ih]
      rfl

theorem parts_char (h : tagAfterBackslashes? (c :: rest) = none) :
    parts (c :: rest) = .char c :: parts rest := by
  rw [parts, partsAfter, h]
  rfl

theorem parts_tag (hbody : IsBody body) (n : Nat) (rest : Text) :
    parts (writtenTag n body ++ rest) = .tag n body :: parts rest := by
  obtain ⟨c, more, hcons⟩ : ∃ c more, writtenTag n body ++ rest = c :: more :=
    List.exists_cons_of_ne_nil (by simp [writtenTag])
  have hdrop : more.drop (n + body.length + 1) = rest := by
    have hall : (c :: more).drop (n + body.length + 2) = rest := by
      rw [← hcons, ← length_writtenTag]
      exact List.drop_left
    exact hall
  have htag := tagAfterBackslashes?_writtenTag hbody n rest
  rw [hcons] at htag ⊢
  rw [parts, partsAfter, htag]
  simp only [partsAfter_eq, hdrop]

theorem Reads.parts_eq (h : Reads t ps) : parts t = ps := by
  induction h with
  | nil => rfl
  | char hplain _ ih => rw [parts_char hplain, ih]
  | tag hbody _ ih => rw [parts_tag hbody, ih]

/-- Every text is read as its parts. -/
theorem reads_parts (t : Text) : Reads t (parts t) := by
  generalize hlength : t.length = length
  induction length using Nat.strong_induction_on generalizing t with
  | _ length ih =>
    cases t with
    | nil => exact .nil
    | cons c rest =>
      cases htag : tagAfterBackslashes? (c :: rest) with
      | none =>
        rw [parts_char htag]
        exact .char htag (ih rest.length (by simp [← hlength]) rest rfl)
      | some tag =>
        obtain ⟨n, body⟩ := tag
        obtain ⟨hbody, more, hmore⟩ := tagAfterBackslashes?_eq_some htag
        rw [hmore, parts_tag hbody]
        refine .tag hbody (ih more.length ?_ more rfl)
        rw [← hlength, hmore, List.length_append, length_writtenTag]
        omega

theorem Reads.written (h : Reads t ps) : ps.flatMap Part.written = t := by
  induction h with
  | nil => rfl
  | char _ _ ih => rw [List.flatMap_cons, ih]; rfl
  | tag _ _ ih => rw [List.flatMap_cons, ih]; rfl

theorem Reads.isBody (h : Reads t ps) (hmem : .tag n body ∈ ps) : IsBody body := by
  induction h with
  | nil => cases hmem
  | char _ _ ih => exact ih ((List.mem_cons.1 hmem).resolve_left nofun)
  | tag hother _ ih =>
    rcases List.mem_cons.1 hmem with heq | hmem
    · cases heq
      exact hother
    · exact ih hmem

theorem Reads.of_char (h : Reads t (.char c :: ps)) :
    ∃ rest, t = c :: rest ∧ tagAfterBackslashes? t = none ∧ Reads rest ps := by
  cases h with
  | char hplain hrest => exact ⟨_, rfl, hplain, hrest⟩

theorem Reads.plain (h : Reads t (.char c :: ps)) : tagAfterBackslashes? t = none := by
  obtain ⟨_, -, hplain, -⟩ := h.of_char
  exact hplain

theorem reads_writtenTag (hbody : IsBody body) (n : Nat) :
    Reads (writtenTag n body) [.tag n body] := by
  have h : Reads (writtenTag n body ++ []) [.tag n body] := .tag hbody .nil
  rwa [List.append_nil] at h

theorem tagAfterBackslashes?_bracket (t : Text) : tagAfterBackslashes? ('[' :: t) =
    (if t.head?.any opensTag then untilBracket t else none).map fun body => (0, body) := by
  rw [tagAfterBackslashes?_cons (by decide), tagBody?_bracket]

theorem tagAfterBackslashes?_of_ne (hbackslash : c ≠ '\\') (hbracket : c ≠ '[') (t : Text) :
    tagAfterBackslashes? (c :: t) = none := by
  rw [tagAfterBackslashes?_cons hbackslash, tagBody?_of_ne hbracket]
  rfl

theorem head?_append_writtenTag (n : Nat) (t body : Text) :
    (t ++ writtenTag n body).head?.any opensTag = t.head?.any opensTag := by
  cases t with
  | cons c rest => rfl
  | nil =>
    cases n with
    | zero => rfl
    | succ n => rfl

theorem untilBracket_append_writtenTag (n : Nat) (t body : Text) :
    untilBracket (t ++ writtenTag n body) = untilBracket t := by
  induction t with
  | nil =>
    have hnone := untilBracket_writtenTag n body []
    rwa [List.append_nil] at hnone
  | cons c rest ih => rw [List.cons_append, untilBracket, untilBracket, ih]

/-- A tag written behind a text takes the backslashes at its end, and leaves the rest as it is. -/
theorem Reads.append_writtenTag (h : Reads t ps) (hbody : IsBody body) (n : Nat) :
    ∃ qs i, ps = qs ++ List.replicate i (.char '\\') ∧
      Reads (t ++ writtenTag n body) (qs ++ [.tag (i + n) body]) := by
  induction h with
  | nil => exact ⟨[], 0, rfl, (Nat.zero_add n).symm ▸ reads_writtenTag hbody n⟩
  | tag hother _ ih =>
    obtain ⟨qs, i, rfl, hreads⟩ := ih
    refine ⟨_ :: qs, i, rfl, ?_⟩
    rw [List.append_assoc]
    exact .tag hother hreads
  | @char c rest ps hplain h ih =>
    obtain ⟨qs, i, rfl, hreads⟩ := ih
    by_cases hbackslash : c = '\\'
    · subst hbackslash
      rw [tagAfterBackslashes?_backslash, Option.map_eq_none_iff] at hplain
      cases qs with
      | nil =>
        have hrest : rest ++ writtenTag n body = writtenTag (i + n) body := by
          rw [← hreads.written]
          exact List.append_nil _
        have hall : '\\' :: rest ++ writtenTag n body = writtenTag (i + 1 + n) body := by
          rw [List.cons_append, hrest, Nat.add_right_comm]
          rfl
        exact ⟨[], i + 1, rfl, hall ▸ reads_writtenTag hbody (i + 1 + n)⟩
      | cons q qs =>
        refine ⟨.char '\\' :: q :: qs, i, rfl, .char ?_ hreads⟩
        rw [List.append_eq, tagAfterBackslashes?_backslash, Option.map_eq_none_iff]
        cases h with
        | char _ _ => exact hreads.plain
        | tag hother _ =>
          rw [tagAfterBackslashes?_writtenTag hother] at hplain
          cases hplain
    · have hmore : tagAfterBackslashes? (c :: (rest ++ writtenTag n body)) = none := by
        by_cases hbracket : c = '['
        · subst hbracket
          rw [tagAfterBackslashes?_bracket] at hplain
          rwa [tagAfterBackslashes?_bracket, head?_append_writtenTag,
            untilBracket_append_writtenTag]
        · exact tagAfterBackslashes?_of_ne hbackslash hbracket _
      exact ⟨.char c :: qs, i, rfl, .char hmore hreads⟩

theorem Reads.append_plain (h : Reads t ps) (hbackslash : '\\' ∉ u) (hbracket : '[' ∉ u) :
    Reads (u ++ t) (u.map .char ++ ps) := by
  induction u with
  | nil => exact h
  | cons c u ih =>
    obtain ⟨hc, hu⟩ := not_or.1 (mt List.mem_cons.2 hbackslash)
    obtain ⟨hc', hu'⟩ := not_or.1 (mt List.mem_cons.2 hbracket)
    exact .char (tagAfterBackslashes?_of_ne (Ne.symm hc) (Ne.symm hc') _) (ih hu hu')

theorem Reads.concat (h : Reads t ps) (hopening : c ≠ '[') (hclosing : c ≠ ']') :
    Reads (t ++ [c]) (ps ++ [.char c]) := by
  have hnone {u : Text} (hu : tagAfterBackslashes? u = none) :
      tagAfterBackslashes? (u ++ [c]) = none := by
    rw [Option.eq_none_iff_forall_ne_some]
    rintro ⟨n, body⟩ hsome
    obtain ⟨hbody, rest, hrest⟩ := tagAfterBackslashes?_eq_some hsome
    rcases List.eq_nil_or_concat rest with rfl | ⟨before, d, rfl⟩
    · have hlast := congrArg List.getLast? hrest
      rw [List.getLast?_concat, List.append_nil, writtenTag, ← List.cons_append,
        ← List.append_assoc, List.getLast?_concat] at hlast
      exact hclosing (Option.some.inj hlast)
    · rw [List.concat_eq_append, ← List.append_assoc] at hrest
      rw [(List.append_inj' hrest rfl).1, tagAfterBackslashes?_writtenTag hbody] at hu
      cases hu
  induction h with
  | nil =>
    refine .char (c := c) ?_ .nil
    by_cases hbackslash : c = '\\'
    · subst hbackslash
      decide
    · exact tagAfterBackslashes?_of_ne hbackslash hopening []
  | char hplain _ ih => exact .char (hnone hplain) ih
  | tag hbody _ ih =>
    rw [List.append_assoc]
    exact .tag hbody ih

/-- What an escaped part is read as. -/
def Part.guarded : Part → Part
  | char c => .char c
  | tag backslashes body => .tag (2 * backslashes + 1) body

theorem Part.escaped_eq (p : Part) : p.escaped = p.guarded.written := by
  cases p with
  | char c => rfl
  | tag n body => simp [escaped, guarded, written, writtenTag]

theorem head?_escaped (h : (ps.flatMap Part.escaped).head?.any opensTag = true) :
    (ps.flatMap Part.written).head?.any opensTag = true := by
  cases ps with
  | nil => cases h
  | cons p ps =>
    cases p with
    | char c => exact h
    | tag n body => exact absurd h (by simp [Part.escaped, List.replicate_succ, opensTag])

theorem untilBracket_escaped (ps : List Part) :
    untilBracket (ps.flatMap Part.escaped) = untilBracket (ps.flatMap Part.written) := by
  induction ps with
  | nil => rfl
  | cons p ps ih =>
    rw [List.flatMap_cons, List.flatMap_cons]
    cases p with
    | char c =>
      rw [Part.escaped, Part.written, List.singleton_append, List.singleton_append, untilBracket,
        untilBracket, ih]
    | tag n body =>
      rw [Part.escaped_eq, Part.guarded, Part.written, Part.written, untilBracket_writtenTag,
        untilBracket_writtenTag]

/-- An escaped text is read part by part as the text itself. -/
theorem Reads.escaped (h : Reads t ps) : Reads (ps.flatMap Part.escaped) (ps.map Part.guarded) := by
  induction h with
  | nil => exact .nil
  | tag hbody _ ih =>
    rw [List.flatMap_cons, Part.escaped_eq]
    exact .tag hbody ih
  | @char c rest ps hplain h ih =>
    have hmore : tagAfterBackslashes? (c :: ps.flatMap Part.escaped) = none := by
      by_cases hbackslash : c = '\\'
      · subst hbackslash
        rw [tagAfterBackslashes?_backslash, Option.map_eq_none_iff] at hplain ⊢
        cases h with
        | nil => rfl
        | char _ _ => exact ih.plain
        | tag hbody _ =>
          rw [tagAfterBackslashes?_writtenTag hbody] at hplain
          cases hplain
      · by_cases hbracket : c = '['
        · subst hbracket
          rw [tagAfterBackslashes?_bracket, Option.map_eq_none_iff] at hplain ⊢
          rw [untilBracket_escaped, h.written]
          split
          · rename_i hescaped
            have hopens := head?_escaped hescaped
            rw [h.written] at hopens
            rwa [if_pos hopens] at hplain
          · rfl
        · exact tagAfterBackslashes?_of_ne hbackslash hbracket _
    exact .char hmore ih

end Scaffold.Markup
