import Scaffold.Proofs.Json.Limits

namespace Scaffold.Json

variable {α β σ : Type} [DecidableEq σ] {dialect : Dialect σ} {e : ReadError} {depth fuel : Nat}
  {s t g h u rest : Text} {v : Json σ}

/-- What an outcome says about the text: what was read stands in front, and an error other than for
malformed texts comes from a bound. -/
def Explained (spells : α → Text → Prop) (breaks : ReadError → Text → Prop) (t : Text) :
    Except ReadError (α × Text) → Prop
  | .ok (a, rest) => ∃ u, t = u ++ rest ∧ spells a u
  | .error e => (∃ fault, e = .malformed fault) ∨ breaks e t

theorem Explained.append {spells spells' : α → Text → Prop}
    {breaks breaks' : ReadError → Text → Prop} {x : Except ReadError (α × Text)}
    (hx : Explained spells breaks t x)
    (hspells : ∀ a u, spells a u → spells' a (s ++ u))
    (hbreaks : ∀ e, breaks e t → breaks' e (s ++ t)) : Explained spells' breaks' (s ++ t) x := by
  cases x with
  | ok result =>
    obtain ⟨u, rfl, hu⟩ := hx
    exact ⟨s ++ u, (List.append_assoc ..).symm, hspells _ u hu⟩
  | error e => exact hx.imp_right (hbreaks e)

theorem Explained.map {spells : β → Text → Prop} {breaks : ReadError → Text → Prop} {f : α → β}
    {x : Except ReadError (α × Text)} (hx : Explained (fun a => spells (f a)) breaks t x) :
    Explained spells breaks t (x.map fun (a, rest) => (f a, rest)) := by
  cases x <;> exact hx

theorem exists_gap (t : Text) : ∃ g, Gap g ∧ t = g ++ skipGap t ∧
    ∀ c ∈ (skipGap t).head?, isGap c = false := by
  refine ⟨t.takeWhile isGap, fun c hc => List.mem_takeWhile_imp hc,
    List.takeWhile_append_dropWhile.symm, ?_⟩
  intro c hc
  have hhead := List.head?_dropWhile_not isGap t
  rw [skipGap] at hc
  rw [hc] at hhead
  exact hhead

theorem head_of_not {c : Char} (hgap : ∀ d ∈ t.head?, isGap d = false)
    (hnot : ¬ ∃ rest, t = c :: rest) : ∀ d ∈ t.head?, isGap d = false ∧ d ≠ c := by
  intro d hd
  refine ⟨hgap d hd, ?_⟩
  rintro rfl
  exact hnot (List.head?_eq_some_iff.1 hd)

omit [DecidableEq σ] in
theorem readString_eq_error (h : readString dialect t = .error e) :
    ∃ fault, e = .malformed fault := by
  rcases Outcome.bind_eq_error.1 h with h | ⟨⟨raw, rest⟩, -, h⟩
  · obtain ⟨fault, -, rfl⟩ := Outcome.mapError_eq_error.1 h
    exact ⟨fault, rfl⟩
  · rcases Outcome.bind_eq_error.1 h with h | ⟨s, -, h⟩
    · obtain ⟨fault, -, rfl⟩ := Outcome.mapError_eq_error.1 h
      exact ⟨fault, rfl⟩
    · cases h

omit [DecidableEq σ] in
theorem spells_of_readString {name : σ} (h : readString dialect t = .ok (name, rest)) :
    ∃ u, '"' :: t = u ++ rest ∧ dialect.SpellsString name u := by
  obtain ⟨⟨raw, more⟩, hread, h⟩ := Outcome.bind_eq_ok.1 h
  obtain ⟨s, hs, heq⟩ := Outcome.bind_eq_ok.1 h
  cases heq
  obtain ⟨u, heq, hu⟩ := spells_of_readLiteral (Outcome.mapError_eq_ok.1 hread)
  exact ⟨u, heq, raw, hu, Outcome.mapError_eq_ok.1 hs⟩

/-- A mapping with the fields of an object put after others. -/
def FieldsAfter (dialect : Dialect σ) (depth : Nat) (before fields : Entries (Json σ) σ)
    (t : Text) : Prop :=
  ∃ pairs, SpellsFields dialect depth pairs t ∧
    pairs.foldl (fun entries (key, value) => entries.put key value) before = fields

theorem explained_keyword {result : Json σ × Text} (ht : readKeyword? t = some result) :
    Explained (Spells dialect depth) (Breaks dialect · depth) t (.ok result) := by
  obtain ⟨⟨word, value⟩, hfind, rfl⟩ := Option.map_eq_some_iff.1 ht
  have hfound := List.find?_some hfind
  obtain ⟨rest, rfl⟩ := List.isPrefixOf_iff_prefix.1 hfound
  refine ⟨word, ?_, .keyword (List.mem_of_find?_eq_some hfind)⟩
  exact congrArg (word ++ ·) List.drop_left.symm

theorem explained_number (t : Text) : Explained (Spells dialect depth) (Breaks dialect · depth) t
    (match Number.scan dialect.boundsDecimals t with
      | .missing => .error (.malformed .expectingValue)
      | .tooLong => .error .numberTooLong
      | .found n rest => .ok (.number n, rest)) := by
  split
  · exact .inl ⟨_, rfl⟩
  · rename_i hscan
    exact .inr (.number hscan)
  · rename_i hscan
    obtain ⟨u, heq, hu⟩ := Number.spells_of_scan hscan
    exact ⟨u, heq, .number hu⟩

theorem explained_string (t : Text) : Explained (Spells dialect depth) (Breaks dialect · depth)
    ('"' :: t) (readValue dialect (fuel + 1) depth ('"' :: t)) := by
  rw [readValue]
  cases hread : readString dialect t with
  | error e =>
    obtain ⟨fault, rfl⟩ := readString_eq_error hread
    exact .inl ⟨fault, rfl⟩
  | ok result =>
    obtain ⟨u, heq, hu⟩ := spells_of_readString hread
    exact ⟨u, heq, .quoted hu⟩

theorem explained_array (t : Text) (hitems : ∀ depth t, Explained (SpellsItems dialect depth)
      (BreaksItems dialect · depth) t (readItems dialect fuel depth t)) :
    Explained (Spells dialect depth) (Breaks dialect · depth) ('[' :: t)
      (readValue dialect (fuel + 1) depth ('[' :: t)) := by
  obtain ⟨g, hg, heq, hhead⟩ := exists_gap t
  by_cases hempty : ∃ rest, skipGap t = ']' :: rest
  · obtain ⟨rest, hrest⟩ := hempty
    have htext : '[' :: t = '[' :: (g ++ [']']) ++ rest := by
      rw [heq, hrest]
      simp
    rw [htext, readValue_noItems hg]
    exact ⟨_, rfl, .noItems hg⟩
  · have hhead := head_of_not hhead hempty
    rw [heq]
    cases depth with
    | zero =>
      rw [readValue_deepArray hg hhead]
      exact .inr (.deepArray hg hhead)
    | succ depth =>
      rw [readValue_array hg hhead]
      have hitems := hitems depth (skipGap t)
      exact (hitems.append (s := '[' :: g) (fun _ _ => .array hg) fun _ => .array hg).map

theorem explained_object (t : Text) (hfields : ∀ depth t, Explained
      (FieldsAfter dialect depth []) (BreaksFields dialect · depth) t
      (readFields dialect fuel depth [] t)) :
    Explained (Spells dialect depth) (Breaks dialect · depth) ('\x7b' :: t)
      (readValue dialect (fuel + 1) depth ('\x7b' :: t)) := by
  obtain ⟨g, hg, heq, hhead⟩ := exists_gap t
  by_cases hempty : ∃ rest, skipGap t = '\x7d' :: rest
  · obtain ⟨rest, hrest⟩ := hempty
    have htext : '\x7b' :: t = '\x7b' :: (g ++ ['\x7d']) ++ rest := by
      rw [heq, hrest]
      simp
    rw [htext, readValue_noFields hg]
    exact ⟨_, rfl, .noFields hg⟩
  · have hhead := head_of_not hhead hempty
    rw [heq]
    cases depth with
    | zero =>
      rw [readValue_deepObject hg hhead]
      exact .inr (.deepObject hg hhead)
    | succ depth =>
      rw [readValue_object hg hhead]
      apply Explained.map
      apply (hfields depth (skipGap t)).append (s := '\x7b' :: g)
      · rintro _ u ⟨pairs, hpairs, rfl⟩
        exact .object hg hpairs
      · exact fun _ => .object hg

theorem explained_value (t : Text)
    (hitems : ∀ depth t, Explained (SpellsItems dialect depth) (BreaksItems dialect · depth) t
      (readItems dialect fuel depth t))
    (hfields : ∀ depth t, Explained (FieldsAfter dialect depth []) (BreaksFields dialect · depth) t
      (readFields dialect fuel depth [] t)) :
    Explained (Spells dialect depth) (Breaks dialect · depth) t
      (readValue dialect (fuel + 1) depth t) := by
  by_cases hstring : ∃ rest, t = '"' :: rest
  · obtain ⟨rest, rfl⟩ := hstring
    exact explained_string rest
  by_cases hobject : ∃ rest, t = '\x7b' :: rest
  · obtain ⟨rest, rfl⟩ := hobject
    exact explained_object rest hfields
  by_cases harray : ∃ rest, t = '[' :: rest
  · obtain ⟨rest, rfl⟩ := harray
    exact explained_array rest hitems
  rw [readValue]
  · cases hword : readKeyword? t with
    | some result => exact explained_keyword hword
    | none => exact explained_number t
  · exact fun rest heq => hstring ⟨rest, heq⟩
  · exact fun rest heq => hobject ⟨rest, heq⟩
  · exact fun rest heq => harray ⟨rest, heq⟩

theorem explained_items (t : Text)
    (hvalue : Explained (Spells dialect depth) (Breaks dialect · depth) t
      (readValue dialect fuel depth t))
    (hitems : ∀ t, Explained (SpellsItems dialect depth) (BreaksItems dialect · depth) t
      (readItems dialect fuel depth t)) :
    Explained (SpellsItems dialect depth) (BreaksItems dialect · depth) t
      (readItems dialect (fuel + 1) depth t) := by
  cases hread : readValue dialect fuel depth t with
  | error e =>
    rw [hread] at hvalue
    rw [readItems_error hread]
    exact hvalue.imp_right .thisItem
  | ok result =>
    obtain ⟨item, rest⟩ := result
    rw [hread] at hvalue
    obtain ⟨u, rfl, hitem⟩ := hvalue
    obtain ⟨g, hg, heq, -⟩ := exists_gap rest
    rw [readItems_item hread]
    split
    · rename_i more hmore
      rw [hmore] at heq
      subst heq
      exact ⟨u ++ (g ++ [']']), by simp, .lastItem hitem hg⟩
    · rename_i more hmore
      obtain ⟨h, hh, hgap, -⟩ := exists_gap more
      have hrest : rest = g ++ ',' :: (h ++ skipGap more) := by
        rw [← hgap, ← hmore]
        exact heq
      have htext : u ++ rest = (u ++ (g ++ ',' :: h)) ++ skipGap more := by
        rw [hrest]
        simp
      rw [htext]
      apply Explained.map
      apply (hitems (skipGap more)).append
      · intro items t hitems
        simpa using SpellsItems.nextItem hitem hg hh hitems
      · intro e hbreaks
        simpa using BreaksItems.laterItem hitem hg hh hbreaks
    · exact .inl ⟨_, rfl⟩

theorem explained_field {name : σ} (hname : dialect.SpellsString name s) (hg : Gap g)
    (before : Entries (Json σ) σ) (t : Text)
    (hvalue : ∀ t, Explained (Spells dialect depth) (Breaks dialect · depth) t
      (readValue dialect fuel depth t))
    (hfields : ∀ before t, Explained (FieldsAfter dialect depth before)
      (BreaksFields dialect · depth) t (readFields dialect fuel depth before t)) :
    Explained (FieldsAfter dialect depth before) (BreaksFields dialect · depth)
      (s ++ (g ++ ':' :: t))
      (readFields dialect (fuel + 1) depth before (s ++ (g ++ ':' :: t))) := by
  obtain ⟨h, hh, hgap, -⟩ := exists_gap t
  have hvalue := hvalue (skipGap t)
  cases hread : readValue dialect fuel depth (skipGap t) with
  | error e =>
    rw [readFields_error hname hg hread]
    rw [hread] at hvalue
    apply hvalue.imp_right
    intro hbreaks
    rw [hgap]
    exact .thisField hname hg hh hbreaks
  | ok result =>
    obtain ⟨value, rest⟩ := result
    rw [hread] at hvalue
    obtain ⟨u, htext, hu⟩ := hvalue
    obtain ⟨k, hk, heq, -⟩ := exists_gap rest
    rw [readFields_field hname hg hread, hgap, htext]
    split
    · rename_i more hmore
      rw [hmore] at heq
      subst heq
      refine ⟨s ++ (g ++ ':' :: (h ++ (u ++ (k ++ ['\x7d'])))), by simp, [(name, value)], ?_, rfl⟩
      exact .lastField hname hg hh hu hk
    · rename_i more hmore
      obtain ⟨l, hl, hgap, -⟩ := exists_gap more
      have hrest : rest = k ++ ',' :: (l ++ skipGap more) := by
        rw [← hgap, ← hmore]
        exact heq
      have htext : s ++ (g ++ ':' :: (h ++ (u ++ rest))) =
          (s ++ (g ++ ':' :: (h ++ (u ++ (k ++ ',' :: l))))) ++ skipGap more := by
        rw [hrest]
        simp
      rw [htext]
      apply (hfields (before.put name value) (skipGap more)).append
      · rintro fields t ⟨pairs, hpairs, rfl⟩
        refine ⟨(name, value) :: pairs, ?_, rfl⟩
        simpa using SpellsFields.nextField hname hg hh hu hk hl hpairs
      · intro e hbreaks
        simpa using BreaksFields.laterField hname hg hh hu hk hl hbreaks
    · exact .inl ⟨_, rfl⟩

theorem explained_fields (before : Entries (Json σ) σ) (t : Text)
    (hvalue : ∀ t, Explained (Spells dialect depth) (Breaks dialect · depth) t
      (readValue dialect fuel depth t))
    (hfields : ∀ before t, Explained (FieldsAfter dialect depth before)
      (BreaksFields dialect · depth) t (readFields dialect fuel depth before t)) :
    Explained (FieldsAfter dialect depth before) (BreaksFields dialect · depth) t
      (readFields dialect (fuel + 1) depth before t) := by
  by_cases hquote : ∃ rest, t = '"' :: rest
  · obtain ⟨rest, rfl⟩ := hquote
    cases hread : readString dialect rest with
    | error e =>
      obtain ⟨fault, rfl⟩ := readString_eq_error hread
      rw [readFields, hread]
      exact .inl ⟨fault, rfl⟩
    | ok result =>
      obtain ⟨name, more⟩ := result
      obtain ⟨s, heq, hname⟩ := spells_of_readString hread
      obtain ⟨g, hg, hgap, -⟩ := exists_gap more
      by_cases hcolon : ∃ more', skipGap more = ':' :: more'
      · obtain ⟨more', hmore⟩ := hcolon
        rw [heq, hgap, hmore]
        exact explained_field hname hg before more' hvalue hfields
      · rw [readFields, hread]
        simp only [bind, Except.bind]
        split
        · rename_i hmore
          exact absurd ⟨_, hmore⟩ hcolon
        · exact .inl ⟨_, rfl⟩
  · rw [readFields]
    · exact .inl ⟨_, rfl⟩
    · exact fun rest heq => hquote ⟨rest, heq⟩

/-- Every outcome of reading says something about the text. -/
theorem explained_all (dialect : Dialect σ) (fuel : Nat) :
    (∀ depth t, Explained (Spells dialect depth) (Breaks dialect · depth) t
      (readValue dialect fuel depth t)) ∧
    (∀ depth t, Explained (SpellsItems dialect depth) (BreaksItems dialect · depth) t
      (readItems dialect fuel depth t)) ∧
    (∀ depth before t, Explained (FieldsAfter dialect depth before) (BreaksFields dialect · depth) t
      (readFields dialect fuel depth before t)) := by
  induction fuel with
  | zero =>
    exact ⟨fun _ _ => .inl ⟨_, rfl⟩, fun _ _ => .inl ⟨_, rfl⟩, fun _ _ _ => .inl ⟨_, rfl⟩⟩
  | succ fuel ih =>
    obtain ⟨hvalue, hitems, hfields⟩ := ih
    refine ⟨?_, ?_, ?_⟩
    · intro depth t
      exact explained_value t hitems fun depth => hfields depth []
    · intro depth t
      exact explained_items t (hvalue depth t) (hitems depth)
    · intro depth before t
      exact explained_fields before t (hvalue depth) (hfields depth)

theorem gap_of_skipGap (h : skipGap t = []) : Gap t :=
  List.dropWhile_eq_nil_iff.1 h

theorem explained_read (dialect : Dialect σ) (t : Text) :
    match read dialect t with
    | .ok v => Document dialect v t
    | .error e => (∃ fault, e = .malformed fault) ∨ Overruns dialect e t := by
  by_cases hmark : ∃ rest, t = '\uFEFF' :: rest
  · obtain ⟨rest, rfl⟩ := hmark
    exact .inl ⟨_, rfl⟩
  obtain ⟨g, hg, hgap, -⟩ := exists_gap t
  have hvalue := (explained_all dialect (2 * t.length + 2)).1 dialect.depth (skipGap t)
  rw [read]
  · cases hread : readValue dialect (2 * t.length + 2) dialect.depth (skipGap t) with
    | error e =>
      rw [hread] at hvalue
      apply hvalue.imp_right
      intro hbreaks
      rw [hgap]
      exact .mk hg hbreaks
    | ok result =>
      obtain ⟨v, rest⟩ := result
      rw [hread] at hvalue
      obtain ⟨u, htext, hu⟩ := hvalue
      simp only [bind, Except.bind]
      by_cases hrest : skipGap rest = []
      · rw [if_pos hrest, hgap, htext]
        exact .mk hg hu (gap_of_skipGap hrest)
      · rw [if_neg hrest]
        exact .inl ⟨_, rfl⟩
  · exact fun rest heq => hmark ⟨rest, heq⟩

/-- A text is read as a value just if it holds that value and nothing else. -/
theorem read_eq_ok : read dialect t = .ok v ↔ Document dialect v t := by
  constructor
  · intro h
    have hread := explained_read dialect t
    rw [h] at hread
    exact hread
  · rintro ⟨hg, ht, hh⟩
    exact read_of_spells ht hg hh

/-- A text is refused for a bound just if it goes beyond that bound. -/
theorem read_eq_error (he : ∀ fault, e ≠ .malformed fault) :
    read dialect t = .error e ↔ Overruns dialect e t := by
  constructor
  · intro h
    have hread := explained_read dialect t
    rw [h] at hread
    exact hread.resolve_left fun ⟨fault, hfault⟩ => he fault hfault
  · rintro ⟨hg, ht⟩
    exact read_of_breaks ht hg

theorem read_eq_object {entries : Entries (Json σ) σ} (hne : entries ≠ []) :
    read dialect t = .ok (.object entries) ↔
      ∃ fields, ObjectText dialect fields t ∧ Entries.ofPairs fields = entries := by
  rw [read_eq_ok]
  constructor
  · rintro ⟨hg, ht, hk⟩
    generalize hdepth : dialect.depth = depth at ht
    cases ht with
    | keyword hword => simp [keywords] at hword
    | noFields => exact absurd rfl hne
    | object hh hfields => exact ⟨_, .mk hg hdepth hh hfields hk, rfl⟩
  · rintro ⟨fields, ⟨hg, hdepth, hh, hfields, hk⟩, rfl⟩
    have hobject := Spells.object hh hfields
    rw [← hdepth] at hobject
    exact .mk hg hobject hk

end Scaffold.Json
