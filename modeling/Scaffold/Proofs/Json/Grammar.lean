import Scaffold.Json.Reader
import Scaffold.Proofs.Json.Number
import Scaffold.Proofs.Json.StringLiteral
import Scaffold.Proofs.Outcome

namespace Scaffold.Json

/-- White space between two symbols. -/
def Gap (g : Text) : Prop :=
  ∀ c ∈ g, isGap c = true

/-- Characters that may stand in a literal as they are. -/
def Safe (plain : Char → Bool) : Prop :=
  ∀ c, plain c = true → isUnrestricted c = true

theorem safe_isUnrestricted : Safe isUnrestricted :=
  fun _ hc => hc

theorem safe_isAsciiPrintable : Safe isAsciiPrintable := by
  intro c hc
  exact (Bool.and_eq_true_iff.1 hc).1

variable {σ : Type}

/-- A literal that spells a string of the dialect. -/
def Dialect.SpellsString (dialect : Dialect σ) (s : σ) (t : Text) : Prop :=
  ∃ raw, Json.SpellsString raw t ∧ dialect.string raw = .ok s

theorem Dialect.SpellsString.head {dialect : Dialect σ} {s : σ} {t : Text}
    (h : dialect.SpellsString s t) : ∃ rest, t = '"' :: rest := by
  obtain ⟨raw, ⟨hpieces⟩, -⟩ := h
  exact ⟨_, rfl⟩

theorem Dialect.spells_literal {dialect : Dialect σ} {plain : Char → Bool} {s : σ} {t : Text}
    (hplain : Safe plain) (h : dialect.string t = .ok s) :
    dialect.SpellsString s (literal plain t) :=
  ⟨t, Json.spells_literal hplain t, h⟩

variable [DecidableEq σ]

mutual

/-- A text that spells a value with a certain depth of nesting. -/
inductive Spells (dialect : Dialect σ) : Nat → Json σ → Text → Prop where
  | keyword {depth v word} : (word, v) ∈ keywords → Spells dialect depth v word
  | number {depth n t} : Number.Spells dialect.boundsDecimals n t →
      Spells dialect depth (.number n) t
  | quoted {depth s t} : dialect.SpellsString s t → Spells dialect depth (.string s) t
  | noItems {depth g} : Gap g → Spells dialect depth (.array []) ('[' :: (g ++ [']']))
  | array {depth items g t} : Gap g → SpellsItems dialect depth items t →
      Spells dialect (depth + 1) (.array items) ('[' :: (g ++ t))
  | noFields {depth g} : Gap g → Spells dialect depth (.object []) ('\x7b' :: (g ++ ['\x7d']))
  | object {depth fields g t} : Gap g → SpellsFields dialect depth fields t →
      Spells dialect (depth + 1) (.object (Entries.ofPairs fields)) ('\x7b' :: (g ++ t))

/-- The items of an array up to the closing bracket. -/
inductive SpellsItems (dialect : Dialect σ) : Nat → List (Json σ) → Text → Prop where
  | lastItem {depth item t g} : Spells dialect depth item t → Gap g →
      SpellsItems dialect depth [item] (t ++ (g ++ [']']))
  | nextItem {depth item items t g h u} : Spells dialect depth item t → Gap g → Gap h →
      SpellsItems dialect depth items u →
      SpellsItems dialect depth (item :: items) (t ++ (g ++ ',' :: (h ++ u)))

/-- The fields of an object up to the closing brace. -/
inductive SpellsFields (dialect : Dialect σ) : Nat → Entries (Json σ) σ → Text → Prop where
  | lastField {depth name value s t g h k} : dialect.SpellsString name s → Gap g → Gap h →
      Spells dialect depth value t → Gap k →
      SpellsFields dialect depth [(name, value)] (s ++ (g ++ ':' :: (h ++ (t ++ (k ++ ['\x7d'])))))
  | nextField {depth name value fields s t g h k l u} : dialect.SpellsString name s → Gap g →
      Gap h → Spells dialect depth value t → Gap k → Gap l → SpellsFields dialect depth fields u →
      SpellsFields dialect depth ((name, value) :: fields)
        (s ++ (g ++ ':' :: (h ++ (t ++ (k ++ ',' :: (l ++ u))))))

end

/-- A text that holds one value and nothing else. -/
inductive Document (dialect : Dialect σ) : Json σ → Text → Prop where
  | mk {v g t h} : Gap g → Spells dialect dialect.depth v t → Gap h →
      Document dialect v (g ++ (t ++ h))

/-- A text that holds one object and nothing else, with its fields as they stand there. -/
inductive ObjectText (dialect : Dialect σ) : Entries (Json σ) σ → Text → Prop where
  | mk {depth fields g h t k} : Gap g → dialect.depth = depth + 1 → Gap h →
      SpellsFields dialect depth fields t → Gap k →
      ObjectText dialect fields (g ++ ('\x7b' :: (h ++ t) ++ k))

variable {dialect : Dialect σ} {depth fuel : Nat} {plain : Char → Bool} {v : Json σ} {name : σ}
  {s t g h rest : Text} {c : Char}

theorem Spells.null : Spells dialect depth .null "null" :=
  .keyword (by simp [keywords])

theorem Spells.true : Spells dialect depth (.bool true) "true" :=
  .keyword (by simp [keywords])

theorem Spells.false : Spells dialect depth (.bool false) "false" :=
  .keyword (by simp [keywords])

theorem Spells.whole {n : Int} (hn : n.natAbs < Text.numberLimit) :
    Spells dialect depth (.number (.whole n)) (Text.ofInt n) :=
  .number (Number.spells_ofInt dialect.boundsDecimals hn)

theorem Spells.string (hplain : Safe plain) {t : Text} (h : dialect.string t = .ok name) :
    Spells dialect depth (.string name) (literal plain t) :=
  .quoted (dialect.spells_literal hplain h)

theorem skipGap_append (hg : Gap g) (hc : isGap c = false) (rest : Text) :
    skipGap (g ++ c :: rest) = c :: rest := by
  rw [skipGap, List.dropWhile_append_of_pos hg, List.dropWhile_cons_of_neg (by simp [hc])]

theorem skipGap_gap (hg : Gap g) : skipGap g = [] :=
  List.dropWhile_eq_nil_iff.2 hg

theorem skipGap_of_head (hg : Gap g) (ht : ∀ c ∈ t.head?, isGap c = false) :
    skipGap (g ++ t) = t := by
  cases t with
  | nil => rw [List.append_nil, skipGap_gap hg]
  | cons c t => exact skipGap_append hg (ht c rfl) t

/-- A text whose first character is no gap, not the end of an array and no byte order mark. -/
def Starts (t : Text) : Prop :=
  ∃ c rest, t = c :: rest ∧ isGap c = false ∧ c ≠ ']' ∧ c ≠ '\uFEFF'

theorem Starts.append (h : Starts t) (rest : Text) : Starts (t ++ rest) := by
  obtain ⟨c, more, rfl, hc⟩ := h
  exact ⟨c, more ++ rest, rfl, hc⟩

theorem Starts.skipGap (h : Starts t) (hg : Gap g) : skipGap (g ++ t) = t := by
  obtain ⟨c, more, rfl, hgap, -⟩ := h
  exact skipGap_append hg hgap more

theorem Starts.head (h : Starts t) : ∀ c ∈ t.head?, isGap c = false ∧ c ≠ ']' := by
  obtain ⟨c, more, rfl, hgap, hc, -⟩ := h
  intro d hd
  cases hd
  exact ⟨hgap, hc⟩

theorem Starts.exists_fuel (h : Starts t) (hfuel : t.length ≤ fuel) : ∃ n, fuel = n + 1 := by
  obtain ⟨c, more, rfl, -, -⟩ := h
  exact Nat.exists_eq_add_one.2 (Nat.lt_of_lt_of_le (Nat.succ_pos _) hfuel)

omit [DecidableEq σ] in
theorem starts_of_spellsString (h : dialect.SpellsString name s) : Starts s := by
  obtain ⟨rest, rfl⟩ := h.head
  exact ⟨'"', _, rfl, by decide, by decide, by decide⟩

/-- The characters that the notation of a whole number can begin with. -/
def isNumberStart (c : Char) : Bool :=
  c.isDigit || c = '-'

theorem ne_of_isNumberStart {d : Char} (hc : isNumberStart c = true)
    (hd : isNumberStart d = false) : c ≠ d := by
  rintro rfl
  rw [hc] at hd
  cases hd

theorem isGap_of_isNumberStart (hc : isNumberStart c = true) : isGap c = false := by
  have hspace : c ≠ ' ' := ne_of_isNumberStart hc (by decide)
  have htab : c ≠ '\t' := ne_of_isNumberStart hc (by decide)
  have hnewline : c ≠ '\n' := ne_of_isNumberStart hc (by decide)
  have hreturn : c ≠ '\r' := ne_of_isNumberStart hc (by decide)
  simp [isGap, hspace, htab, hnewline, hreturn]

theorem number_head {p : Number.Parts} (h : p.Spells t) :
    ∃ c more, t = c :: more ∧ isNumberStart c = true ∧
      (c = '-' → ∃ d rest, more = d :: rest ∧ d.isDigit = true) := by
  cases h with
  | @mk negative digits _ _ f x hd =>
    obtain ⟨d, rest, rfl, hdigit⟩ : ∃ d rest, digits = d :: rest ∧ d.isDigit = true := by
      cases hd with
      | zero => exact ⟨'0', [], rfl, rfl⟩
      | digits _ hall => exact ⟨_, _, rfl, hall _ List.mem_cons_self⟩
    cases negative with
    | true => exact ⟨'-', _, rfl, rfl, fun _ => ⟨d, _, rfl, hdigit⟩⟩
    | false =>
      refine ⟨d, _, rfl, Bool.or_eq_true_iff.2 (.inl hdigit), ?_⟩
      rintro rfl
      cases hdigit

theorem starts_of_number {p : Number.Parts} (h : p.Spells t) : Starts t := by
  obtain ⟨c, rest, rfl, hc, -⟩ := number_head h
  exact ⟨c, rest, rfl, isGap_of_isNumberStart hc, ne_of_isNumberStart hc (by decide),
    ne_of_isNumberStart hc (by decide)⟩

omit [DecidableEq σ] in
theorem starts_of_keyword (h : (s, v) ∈ keywords) : Starts s := by
  simp only [keywords, List.mem_cons, List.not_mem_nil, or_false, Prod.mk.injEq] at h
  rcases h with ⟨rfl, -⟩ | ⟨rfl, -⟩ | ⟨rfl, -⟩ | ⟨rfl, -⟩ | ⟨rfl, -⟩ | ⟨rfl, -⟩
  all_goals exact ⟨_, _, rfl, by decide, by decide, by decide⟩

theorem starts_of_spells (h : Spells dialect depth v t) : Starts t := by
  cases h with
  | noItems | array | noFields | object =>
    exact ⟨_, _, rfl, by decide, by decide, by decide⟩
  | keyword hword => exact starts_of_keyword hword
  | number hn =>
    obtain ⟨p, hp, -, -⟩ := hn
    exact starts_of_number hp
  | quoted hs => exact starts_of_spellsString hs

theorem starts_of_spellsItems {items : List (Json σ)} (h : SpellsItems dialect depth items t) :
    Starts t := by
  cases h with
  | lastItem hitem => exact (starts_of_spells hitem).append _
  | nextItem hitem => exact (starts_of_spells hitem).append _

theorem starts_of_spellsFields {fields : Entries (Json σ) σ}
    (h : SpellsFields dialect depth fields t) : ∃ rest, t = '"' :: rest := by
  cases h with
  | lastField hname | nextField hname =>
    obtain ⟨rest, rfl⟩ := hname.head
    exact ⟨_, rfl⟩

theorem head_of_quote (h : ∃ more, t = '"' :: more) (rest : Text) :
    ∀ c ∈ (t ++ rest).head?, isGap c = false ∧ c ≠ '\x7d' := by
  obtain ⟨more, rfl⟩ := h
  intro c hc
  cases hc
  decide

theorem ends_of_head (h : ∀ c ∈ t.head?, isGap c = true ∨ c ∈ [']', ',', '\x7d']) :
    Number.Ends t := by
  intro c hc
  have hc := h c hc
  simp only [isGap, Bool.or_eq_true, decide_eq_true_eq, List.mem_cons, List.not_mem_nil,
    or_false] at hc
  rcases hc with (((rfl | rfl) | rfl) | rfl) | rfl | rfl | rfl <;> decide

theorem ends_gap (hg : Gap g) (hc : c ∈ [']', ',', '\x7d']) (rest : Text) :
    Number.Ends (g ++ c :: rest) := by
  apply ends_of_head
  intro d hd
  cases g with
  | nil => exact .inr (Option.some.inj hd ▸ hc)
  | cons e g => exact .inl (Option.some.inj hd ▸ hg e List.mem_cons_self)

omit [DecidableEq σ] in
theorem readString_of_spells (h : dialect.SpellsString name s) :
    ∃ more, s = '"' :: more ∧ ∀ rest, readString dialect (more ++ rest) = .ok (name, rest) := by
  obtain ⟨raw, hraw, hs⟩ := h
  obtain ⟨more, rfl, hread⟩ := readLiteral_of_spells hraw
  refine ⟨more, rfl, fun rest => ?_⟩
  exact Outcome.bind_eq_ok.2 ⟨_, Outcome.mapError_eq_ok.2 (hread rest),
    Outcome.bind_eq_ok.2 ⟨name, Outcome.mapError_eq_ok.2 hs, rfl⟩⟩

theorem readValue_string (h : dialect.SpellsString name s)
    (rest : Text) : readValue dialect (fuel + 1) depth (s ++ rest) = .ok (.string name, rest) := by
  obtain ⟨more, rfl, hread⟩ := readString_of_spells h
  rw [List.cons_append, readValue, hread]
  rfl

theorem readValue_keyword (word : Text) (h : (word, v) ∈ keywords) (rest : Text) :
    readValue dialect (fuel + 1) depth (word ++ rest) = .ok (v, rest) := by
  simp only [keywords, List.mem_cons, List.not_mem_nil, or_false, Prod.mk.injEq] at h
  rcases h with ⟨rfl, rfl⟩ | ⟨rfl, rfl⟩ | ⟨rfl, rfl⟩ | ⟨rfl, rfl⟩ | ⟨rfl, rfl⟩ | ⟨rfl, rfl⟩
  all_goals rfl

omit [DecidableEq σ] in
theorem readKeyword?_number {p : Number.Parts} (h : p.Spells t) (rest : Text) :
    (readKeyword? (t ++ rest) : Option (Json σ × Text)) = none := by
  obtain ⟨c, more, heq, hc, hminus⟩ := number_head h
  have hnone : ∀ e ∈ (keywords : List (Text × Json σ)), ¬ e.1 <+: t ++ rest := by
    rw [heq]
    rintro ⟨word, v⟩ hmem hstart
    change word <+: c :: (more ++ rest) at hstart
    simp only [keywords, List.mem_cons, List.not_mem_nil, or_false, Prod.mk.injEq] at hmem
    rcases hmem with ⟨rfl, -⟩ | ⟨rfl, -⟩ | ⟨rfl, -⟩ | ⟨rfl, -⟩ | ⟨rfl, -⟩ | ⟨rfl, -⟩
    all_goals obtain ⟨rfl, hsecond⟩ := List.cons_prefix_cons.1 hstart
    all_goals try cases hc
    obtain ⟨d, digits, rfl, hd⟩ := hminus rfl
    obtain ⟨rfl, -⟩ := List.cons_prefix_cons.1 hsecond
    cases hd
  rw [readKeyword?, List.find?_eq_none.2]
  · rfl
  · exact fun e he hstart => hnone e he (List.isPrefixOf_iff_prefix.1 hstart)

theorem readValue_scan {p : Number.Parts} (h : p.Spells t) (rest : Text) :
    readValue dialect (fuel + 1) depth (t ++ rest) =
      match Number.scan dialect.boundsDecimals (t ++ rest) with
      | .missing => .error (.malformed .expectingValue)
      | .tooLong => .error .numberTooLong
      | .found n rest => .ok (.number n, rest) := by
  have hword : (readKeyword? (t ++ rest) : Option (Json σ × Text)) = none :=
    readKeyword?_number h rest
  obtain ⟨c, more, rfl, hc, -⟩ := number_head h
  rw [List.cons_append] at hword ⊢
  rw [readValue]
  · rewrite [hword]
    rfl
  · exact fun _ h => ne_of_isNumberStart hc (by decide) (List.cons.inj h).1
  · exact fun _ h => ne_of_isNumberStart hc (by decide) (List.cons.inj h).1
  · exact fun _ h => ne_of_isNumberStart hc (by decide) (List.cons.inj h).1

theorem readValue_number {n : Number} (hn : Number.Spells dialect.boundsDecimals n t)
    (hrest : Number.Ends rest) :
    readValue dialect (fuel + 1) depth (t ++ rest) = .ok (.number n, rest) := by
  have hscan := Number.scan_of_spells hn hrest
  obtain ⟨p, hp, -, -⟩ := hn
  rw [readValue_scan hp, hscan]

theorem readValue_array (hg : Gap g) (ht : ∀ c ∈ t.head?, isGap c = false ∧ c ≠ ']') :
    readValue dialect (fuel + 1) (depth + 1) ('[' :: (g ++ t)) =
      (readItems dialect fuel depth t).map fun (items, rest) => (.array items, rest) := by
  have hskip := skipGap_of_head hg fun c hc => (ht c hc).1
  rw [readValue.eq_def]
  simp only [hskip]
  split
  · exact absurd rfl (ht ']' rfl).2
  · rename_i hdepth
    cases hdepth
  · rename_i t _ _ _ _ hdepth
    cases hdepth
    cases readItems dialect fuel depth t <;> rfl

theorem readValue_object (hg : Gap g) (ht : ∀ c ∈ t.head?, isGap c = false ∧ c ≠ '\x7d') :
    readValue dialect (fuel + 1) (depth + 1) ('\x7b' :: (g ++ t)) =
      (readFields dialect fuel depth [] t).map fun (fields, rest) => (.object fields, rest) := by
  have hskip := skipGap_of_head hg fun c hc => (ht c hc).1
  rw [readValue.eq_def]
  simp only [hskip]
  split
  · exact absurd rfl (ht '\x7d' rfl).2
  · rename_i hdepth
    cases hdepth
  · rename_i t _ _ _ _ hdepth
    cases hdepth
    cases readFields dialect fuel depth [] t <;> rfl

theorem readValue_noItems (hg : Gap g) (rest : Text) :
    readValue dialect (fuel + 1) depth ('[' :: (g ++ [']']) ++ rest) = .ok (.array [], rest) := by
  have hskip := skipGap_append hg (c := ']') (by decide) rest
  rw [List.cons_append, List.append_assoc, readValue]
  exact hskip

theorem readValue_noFields (hg : Gap g) (rest : Text) :
    readValue dialect (fuel + 1) depth ('\x7b' :: (g ++ ['\x7d']) ++ rest) =
      .ok (.object [], rest) := by
  have hskip := skipGap_append hg (c := '\x7d') (by decide) rest
  rw [List.cons_append, List.append_assoc, readValue]
  exact hskip

theorem readItems_item {item : Json σ}
    (hitem : readValue dialect fuel depth t = .ok (item, rest)) :
    readItems dialect (fuel + 1) depth t =
      match skipGap rest with
      | ']' :: rest => .ok ([item], rest)
      | ',' :: rest => (readItems dialect fuel depth (skipGap rest)).map fun (items, rest) =>
        (item :: items, rest)
      | _ => .error (.malformed .expectingComma) := by
  rw [readItems, hitem]
  simp only [bind, Except.bind]
  generalize skipGap rest = t
  split
  · rfl
  · rename_i more
    change _ = (readItems dialect fuel depth (skipGap more)).map _
    cases readItems dialect fuel depth (skipGap more) <;> rfl
  · simp only

theorem readFields_field (hname : dialect.SpellsString name s)
    (hg : Gap g) (hvalue : readValue dialect fuel depth (skipGap t) = .ok (v, rest))
    (before : Entries (Json σ) σ) :
    readFields dialect (fuel + 1) depth before (s ++ (g ++ ':' :: t)) =
      match skipGap rest with
      | '\x7d' :: rest => .ok (before.put name v, rest)
      | ',' :: rest => readFields dialect fuel depth (before.put name v) (skipGap rest)
      | _ => .error (.malformed .expectingComma) := by
  obtain ⟨more, rfl, hread⟩ := readString_of_spells hname
  rw [List.cons_append, readFields, hread]
  simp only [bind, Except.bind]
  rw [skipGap_append hg (c := ':') (by decide)]
  simp only [hvalue]
  rfl

/-- A text that spells a value is read as that value. -/
theorem readValue_of_spells (h : Spells dialect depth v t) (hfuel : t.length ≤ fuel)
    (hrest : Number.Ends rest) : readValue dialect fuel depth (t ++ rest) = .ok (v, rest) := by
  -- The induction is on how the text spells the value. It carries any fuel that is no less than the
  -- text is long: each part of a text is shorter by at least the symbol that costs a unit of fuel.
  induction h using Spells.rec
    (motive_2 := fun depth items t _ => ∀ {fuel rest}, t.length ≤ fuel →
      readItems dialect fuel depth (t ++ rest) = .ok (items, rest))
    (motive_3 := fun depth fields t _ => ∀ {fuel rest before}, t.length ≤ fuel →
      readFields dialect fuel depth before (t ++ rest) =
        .ok (fields.foldl (fun entries field => entries.put field.1 field.2) before, rest))
    generalizing fuel rest with
  | keyword hword =>
    obtain ⟨fuel, rfl⟩ := (starts_of_keyword hword).exists_fuel hfuel
    exact readValue_keyword _ hword rest
  | number hn =>
    have ⟨p, hp, _⟩ := hn
    obtain ⟨fuel, rfl⟩ := (starts_of_number hp).exists_fuel hfuel
    exact readValue_number hn hrest
  | quoted hs =>
    obtain ⟨fuel, rfl⟩ := (starts_of_spellsString hs).exists_fuel hfuel
    exact readValue_string hs rest
  | noItems hg =>
    obtain ⟨fuel, rfl⟩ := (starts_of_spells (@Spells.noItems σ _ dialect 0 _ hg)).exists_fuel hfuel
    exact readValue_noItems hg rest
  | array hg hitems ih =>
    obtain ⟨fuel, rfl⟩ := (starts_of_spells (.array hg hitems)).exists_fuel hfuel
    simp only [List.length_cons, List.length_append] at hfuel
    rw [List.cons_append, List.append_assoc,
      readValue_array hg ((starts_of_spellsItems hitems).append rest).head, ih (by omega)]
    rfl
  | noFields hg =>
    obtain ⟨fuel, rfl⟩ := (starts_of_spells (@Spells.noFields σ _ dialect 0 _ hg)).exists_fuel hfuel
    exact readValue_noFields hg rest
  | object hg hfields ih =>
    obtain ⟨fuel, rfl⟩ := (starts_of_spells (.object hg hfields)).exists_fuel hfuel
    simp only [List.length_cons, List.length_append] at hfuel
    have hread := @ih fuel rest [] (by omega)
    rw [List.cons_append, List.append_assoc,
      readValue_object hg (head_of_quote (starts_of_spellsFields hfields) rest), hread]
    rfl
  | lastItem hitem hg ih =>
    rename_i fuel rest hfuel
    obtain ⟨fuel, rfl⟩ := (starts_of_spellsItems (.lastItem hitem hg)).exists_fuel hfuel
    simp only [List.length_append, List.length_singleton] at hfuel
    simp only [List.append_assoc, List.cons_append, List.nil_append]
    rw [readItems_item (ih (by omega) (ends_gap hg (by simp) rest)), skipGap_append hg (by decide)]
    rfl
  | nextItem hitem hg hh hitems ih ihmore =>
    rename_i g h u fuel rest hfuel
    obtain ⟨fuel, rfl⟩ :=
      (starts_of_spellsItems (.nextItem hitem hg hh hitems)).exists_fuel hfuel
    simp only [List.length_append, List.length_cons] at hfuel
    have hread := @ih fuel (g ++ ',' :: (h ++ (u ++ rest))) (by omega) (ends_gap hg (by simp) _)
    simp only [List.append_assoc, List.cons_append]
    rw [readItems_item hread, skipGap_append hg (by decide)]
    have hskip := ((starts_of_spellsItems hitems).append rest).skipGap hh
    simp only [hskip, @ihmore fuel rest (by omega)]
    rfl
  | lastField hname hg hh hvalue hk ih =>
    rename_i k fuel rest before hfuel
    obtain ⟨fuel, rfl⟩ := ((starts_of_spellsString hname).append _).exists_fuel hfuel
    simp only [List.length_append, List.length_cons] at hfuel
    have hread := @ih fuel (k ++ '\x7d' :: rest) (by omega) (ends_gap hk (by simp) rest)
    rw [← ((starts_of_spells hvalue).append _).skipGap hh] at hread
    simp only [List.append_assoc, List.cons_append, List.nil_append]
    rw [readFields_field hname hg hread, skipGap_append hk (by decide)]
    rfl
  | nextField hname hg hh hvalue hk hl hfields ih ihmore =>
    rename_i k l u fuel rest before hfuel
    obtain ⟨fuel, rfl⟩ := ((starts_of_spellsString hname).append _).exists_fuel hfuel
    simp only [List.length_append, List.length_cons] at hfuel
    have hread := @ih fuel (k ++ ',' :: (l ++ (u ++ rest))) (by omega) (ends_gap hk (by simp) _)
    rw [← ((starts_of_spells hvalue).append _).skipGap hh] at hread
    have hskip : skipGap (l ++ (u ++ rest)) = u ++ rest := by
      obtain ⟨more, rfl⟩ := starts_of_spellsFields hfields
      exact skipGap_append hl (by decide) (more ++ rest)
    simp only [List.append_assoc, List.cons_append]
    rw [readFields_field hname hg hread, skipGap_append hk (by decide)]
    simp only [hskip]
    exact ihmore (by omega)

theorem read_eq (ht : Starts t) (hg : Gap g) :
    read dialect (g ++ t) = (do
      let (value, rest) ← readValue dialect (2 * (g ++ t).length + 2) dialect.depth t
      if skipGap rest = [] then return value else .error (.malformed .extraData)) := by
  have hmark : ∀ more, g ++ t ≠ '\uFEFF' :: more := by
    intro more heq
    cases g with
    | nil =>
      obtain ⟨c, _, rfl, -, -, hc⟩ := ht
      exact hc (List.cons.inj heq).1
    | cons c g =>
      have hc := hg c List.mem_cons_self
      rw [(List.cons.inj heq).1] at hc
      cases hc
  rw [read, ht.skipGap hg]
  exact hmark

theorem read_of_spells (ht : Spells dialect dialect.depth v t) (hg : Gap g) (hh : Gap h) :
    read dialect (g ++ (t ++ h)) = .ok v := by
  have hends : Number.Ends h := ends_of_head fun c hc => .inl (hh c (List.mem_of_mem_head? hc))
  have hfuel : t.length ≤ 2 * (g ++ (t ++ h)).length + 2 := by
    simp only [List.length_append]
    omega
  rw [read_eq ((starts_of_spells ht).append h) hg, readValue_of_spells ht hfuel hends]
  exact if_pos (skipGap_gap hh)

end Scaffold.Json
