import Scaffold.Proofs.Json.Grammar

namespace Scaffold.Json

variable {σ : Type} [DecidableEq σ]

mutual

/-- A text in which reading a value breaks off. -/
inductive Breaks (dialect : Dialect σ) : ReadError → Nat → Text → Prop where
  | number {depth t} : Number.scan dialect.boundsDecimals t = .tooLong →
      Breaks dialect .numberTooLong depth t
  | deepArray {g t} : Gap g → (∀ c ∈ t.head?, isGap c = false ∧ c ≠ ']') →
      Breaks dialect .tooDeep 0 ('[' :: (g ++ t))
  | array {e depth g t} : Gap g → BreaksItems dialect e depth t →
      Breaks dialect e (depth + 1) ('[' :: (g ++ t))
  | deepObject {g t} : Gap g → (∀ c ∈ t.head?, isGap c = false ∧ c ≠ '\x7d') →
      Breaks dialect .tooDeep 0 ('\x7b' :: (g ++ t))
  | object {e depth g t} : Gap g → BreaksFields dialect e depth t →
      Breaks dialect e (depth + 1) ('\x7b' :: (g ++ t))

/-- Reading breaks off in one of the items of an array. -/
inductive BreaksItems (dialect : Dialect σ) : ReadError → Nat → Text → Prop where
  | thisItem {e depth t} : Breaks dialect e depth t → BreaksItems dialect e depth t
  | laterItem {e depth item t g h u} : Spells dialect depth item t → Gap g → Gap h →
      BreaksItems dialect e depth u → BreaksItems dialect e depth (t ++ (g ++ ',' :: (h ++ u)))

/-- Reading breaks off in the value of one of the fields of an object. -/
inductive BreaksFields (dialect : Dialect σ) : ReadError → Nat → Text → Prop where
  | thisField {e depth name s t g h} : dialect.SpellsString name s → Gap g → Gap h →
      Breaks dialect e depth t → BreaksFields dialect e depth (s ++ (g ++ ':' :: (h ++ t)))
  | laterField {e depth name value s t g h k l u} : dialect.SpellsString name s → Gap g →
      Gap h → Spells dialect depth value t → Gap k → Gap l → BreaksFields dialect e depth u →
      BreaksFields dialect e depth (s ++ (g ++ ':' :: (h ++ (t ++ (k ++ ',' :: (l ++ u))))))

end

/-- A text that goes beyond a bound of the dialect, whatever follows. -/
inductive Overruns (dialect : Dialect σ) : ReadError → Text → Prop where
  | mk {e g t} : Gap g → Breaks dialect e dialect.depth t → Overruns dialect e (g ++ t)

variable {dialect : Dialect σ} {e : ReadError} {depth fuel : Nat} {s t g h rest : Text}

theorem exists_of_tooLong {bounded : Bool} (ht : Number.scan bounded t = .tooLong) :
    ∃ (p : Number.Parts) (u rest : Text), t = u ++ rest ∧ p.Spells u := by
  rcases Number.parts_of_scan bounded t with hmissing | ⟨p, u, rest, heq, hp, -⟩
  · rw [hmissing] at ht
    cases ht
  · exact ⟨p, u, rest, heq, hp⟩

theorem starts_of_breaks (h : Breaks dialect e depth t) : Starts t := by
  cases h with
  | number ht =>
    obtain ⟨p, u, rest, rfl, hp⟩ := exists_of_tooLong ht
    exact (starts_of_number hp).append rest
  | deepArray | array | deepObject | object =>
    exact ⟨_, _, rfl, by decide, by decide, by decide⟩

theorem starts_of_breaksItems (h : BreaksItems dialect e depth t) : Starts t := by
  cases h with
  | thisItem h => exact starts_of_breaks h
  | laterItem hitem => exact (starts_of_spells hitem).append _

theorem starts_of_breaksFields (h : BreaksFields dialect e depth t) : ∃ more, t = '"' :: more := by
  cases h with
  | thisField hname | laterField hname =>
    obtain ⟨rest, rfl⟩ := hname.head
    exact ⟨_, rfl⟩

theorem readValue_deepArray (hg : Gap g) (ht : ∀ c ∈ t.head?, isGap c = false ∧ c ≠ ']') :
    readValue dialect (fuel + 1) 0 ('[' :: (g ++ t)) = .error .tooDeep := by
  have hskip := skipGap_of_head hg fun c hc => (ht c hc).1
  rw [readValue.eq_def]
  simp only [hskip]
  split
  · exact absurd rfl (ht ']' rfl).2
  · rfl
  · rename_i hdepth
    cases hdepth

theorem readValue_deepObject (hg : Gap g) (ht : ∀ c ∈ t.head?, isGap c = false ∧ c ≠ '\x7d') :
    readValue dialect (fuel + 1) 0 ('\x7b' :: (g ++ t)) = .error .tooDeep := by
  have hskip := skipGap_of_head hg fun c hc => (ht c hc).1
  rw [readValue.eq_def]
  simp only [hskip]
  split
  · exact absurd rfl (ht '\x7d' rfl).2
  · rfl
  · rename_i hdepth
    cases hdepth

theorem readItems_error (h : readValue dialect fuel depth t = .error e) :
    readItems dialect (fuel + 1) depth t = .error e := by
  rw [readItems, h]
  rfl

theorem readFields_error {name : σ} (hname : dialect.SpellsString name s)
    (hg : Gap g) (hvalue : readValue dialect fuel depth (skipGap t) = .error e)
    (before : Entries (Json σ) σ) :
    readFields dialect (fuel + 1) depth before (s ++ (g ++ ':' :: t)) = .error e := by
  obtain ⟨more, rfl, hread⟩ := readString_of_spells hname
  rw [List.cons_append, readFields, hread]
  simp only [bind, Except.bind]
  rw [skipGap_append hg (c := ':') (by decide)]
  simp only [hvalue]

/-- Where reading a value breaks off, it ends with the error. -/
theorem readValue_of_breaks (h : Breaks dialect e depth t) (hfuel : 2 * t.length ≤ fuel) :
    readValue dialect fuel depth t = .error e := by
  -- No symbol need stand behind an item that breaks off, so that the fuel for the items of an array
  -- is not paid for by one. It is paid for by the other half of what each character brings.
  induction h using Breaks.rec
    (motive_2 := fun e depth t _ => ∀ {fuel}, 2 * t.length + 1 ≤ fuel →
      readItems dialect fuel depth t = .error e)
    (motive_3 := fun e depth t _ => ∀ {fuel before}, 2 * t.length ≤ fuel →
      readFields dialect fuel depth before t = .error e)
    generalizing fuel with
  | number ht =>
    obtain ⟨p, u, rest, rfl, hp⟩ := exists_of_tooLong ht
    have hle : (u ++ rest).length ≤ fuel := by omega
    obtain ⟨fuel, rfl⟩ := ((starts_of_number hp).append rest).exists_fuel hle
    rw [readValue_scan hp, ht]
  | deepArray hg ht =>
    rw [List.length_cons] at hfuel
    obtain ⟨fuel, rfl⟩ := Nat.exists_eq_add_one.2 (show 0 < fuel by omega)
    exact readValue_deepArray hg ht
  | array hg hitems ih =>
    simp only [List.length_cons, List.length_append] at hfuel
    obtain ⟨fuel, rfl⟩ := Nat.exists_eq_add_one.2 (show 0 < fuel by omega)
    rw [readValue_array hg (starts_of_breaksItems hitems).head, ih (by omega)]
    rfl
  | deepObject hg ht =>
    rw [List.length_cons] at hfuel
    obtain ⟨fuel, rfl⟩ := Nat.exists_eq_add_one.2 (show 0 < fuel by omega)
    exact readValue_deepObject hg ht
  | object hg hfields ih =>
    simp only [List.length_cons, List.length_append] at hfuel
    obtain ⟨fuel, rfl⟩ := Nat.exists_eq_add_one.2 (show 0 < fuel by omega)
    have hhead := head_of_quote (starts_of_breaksFields hfields) []
    rw [List.append_nil] at hhead
    rw [readValue_object hg hhead, ih (by omega)]
    rfl
  | thisItem h ih =>
    rename_i fuel hfuel
    obtain ⟨fuel, rfl⟩ := Nat.exists_eq_add_one.2 (show 0 < fuel by omega)
    exact readItems_error (ih (by omega))
  | laterItem hitem hg hh hitems ih =>
    rename_i t g h u fuel hfuel
    simp only [List.length_append, List.length_cons] at hfuel
    obtain ⟨fuel, rfl⟩ := Nat.exists_eq_add_one.2 (show 0 < fuel by omega)
    have hle : t.length ≤ fuel := by omega
    have hread := readValue_of_spells hitem hle (ends_gap hg (c := ',') (by simp) (h ++ u))
    rw [readItems_item hread, skipGap_append hg (by decide)]
    simp only [(starts_of_breaksItems hitems).skipGap hh, @ih fuel (by omega)]
    rfl
  | thisField hname hg hh h ih =>
    rename_i fuel before hfuel
    simp only [List.length_append, List.length_cons] at hfuel
    obtain ⟨fuel, rfl⟩ := Nat.exists_eq_add_one.2 (show 0 < fuel by omega)
    apply readFields_error hname hg
    rw [(starts_of_breaks h).skipGap hh]
    exact ih (by omega)
  | laterField hname hg hh hvalue hk hl hfields ih =>
    rename_i t g h k l u fuel before hfuel
    simp only [List.length_append, List.length_cons] at hfuel
    obtain ⟨fuel, rfl⟩ := Nat.exists_eq_add_one.2 (show 0 < fuel by omega)
    have hle : t.length ≤ fuel := by omega
    have hread := readValue_of_spells hvalue hle (ends_gap hk (c := ',') (by simp) (l ++ u))
    have hskip : skipGap (l ++ u) = u := by
      obtain ⟨more, rfl⟩ := starts_of_breaksFields hfields
      exact skipGap_append hl (by decide) more
    rw [← ((starts_of_spells hvalue).append _).skipGap hh] at hread
    rw [readFields_field hname hg hread, skipGap_append hk (by decide)]
    simp only [hskip]
    exact ih (by omega)

theorem read_of_breaks (h : Breaks dialect e dialect.depth t) (hg : Gap g) :
    read dialect (g ++ t) = .error e := by
  have hfuel : 2 * t.length ≤ 2 * (g ++ t).length + 2 := by
    simp only [List.length_append]
    omega
  rw [read_eq (starts_of_breaks h) hg, readValue_of_breaks h hfuel]
  rfl

/-- A text with more digits in a row than any number that is read. -/
def HasLongNumber (t : Text) : Prop :=
  ∃ before digits rest, t = before ++ (digits ++ rest) ∧ (∀ c ∈ digits, c.isDigit = true) ∧
    Text.digitLimit < digits.length

theorem HasLongNumber.append (ht : HasLongNumber t) (s : Text) : HasLongNumber (s ++ t) := by
  obtain ⟨before, digits, rest, rfl, hdigits⟩ := ht
  exact ⟨s ++ before, digits, rest, (List.append_assoc ..).symm, hdigits⟩

theorem HasLongNumber.lt_length (ht : HasLongNumber t) : Text.digitLimit < t.length := by
  obtain ⟨before, digits, rest, rfl, -, hlong⟩ := ht
  simp only [List.length_append]
  omega

theorem hasLongNumber_of_breaks (h : Breaks dialect e depth t) (he : e = .numberTooLong) :
    HasLongNumber t := by
  induction h using Breaks.rec
    (motive_2 := fun e _ t _ => e = .numberTooLong → HasLongNumber t)
    (motive_3 := fun e _ t _ => e = .numberTooLong → HasLongNumber t) with
  | number ht => exact Number.digits_of_scan ht
  | deepArray | deepObject => cases he
  | @array _ _ g _ _ _ ih => exact (ih he).append ('[' :: g)
  | @object _ _ g _ _ _ ih => exact (ih he).append ('\x7b' :: g)
  | thisItem _ ih => exact ih ‹_›
  | @laterItem _ _ _ t g h _ _ _ _ _ ih =>
    simpa using (ih ‹_›).append (t ++ (g ++ ',' :: h))
  | @thisField _ _ _ s _ g h _ _ _ _ ih =>
    simpa using (ih ‹_›).append (s ++ (g ++ ':' :: h))
  | @laterField _ _ _ _ s t g h k l _ _ _ _ _ _ _ _ ih =>
    simpa using (ih ‹_›).append (s ++ (g ++ ':' :: (h ++ (t ++ (k ++ ',' :: l)))))

/-- The symbols that arrays and objects begin with. -/
def isOpening (c : Char) : Bool :=
  c = '[' || c = '\x7b'

theorem lt_countP_of_breaks (h : Breaks dialect e depth t) (he : e = .tooDeep) :
    depth < t.countP isOpening := by
  induction h using Breaks.rec
    (motive_2 := fun e depth t _ => e = .tooDeep → depth < t.countP isOpening)
    (motive_3 := fun e depth t _ => e = .tooDeep → depth < t.countP isOpening) with
  | number => cases he
  | deepArray | deepObject =>
    rw [List.countP_cons_of_pos (by decide)]
    exact Nat.succ_pos _
  | array _ _ ih =>
    have hitems := ih he
    rw [List.countP_cons_of_pos (by decide), List.countP_append]
    omega
  | object _ _ ih =>
    have hfields := ih he
    rw [List.countP_cons_of_pos (by decide), List.countP_append]
    omega
  | thisItem _ ih => exact ih ‹_›
  | laterItem _ _ _ _ ih =>
    have hitems := ih ‹_›
    simp only [List.countP_append, List.countP_cons]
    omega
  | thisField _ _ _ _ ih =>
    have hvalue := ih ‹_›
    simp only [List.countP_append, List.countP_cons]
    omega
  | laterField _ _ _ _ _ _ _ ih =>
    have hfields := ih ‹_›
    simp only [List.countP_append, List.countP_cons]
    omega

theorem Overruns.hasLongNumber (h : Overruns dialect .numberTooLong t) : HasLongNumber t := by
  obtain ⟨-, ht⟩ := h
  exact (hasLongNumber_of_breaks ht rfl).append _

theorem Overruns.lt_countP (h : Overruns dialect .tooDeep t) :
    dialect.depth < t.countP isOpening := by
  obtain ⟨-, ht⟩ := h
  rw [List.countP_append]
  exact Nat.lt_of_lt_of_le (lt_countP_of_breaks ht rfl) (Nat.le_add_left _ _)

end Scaffold.Json
