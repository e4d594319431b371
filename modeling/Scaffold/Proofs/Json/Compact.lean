import Scaffold.Proofs.Json.Depth
import Scaffold.Proofs.Json.Printer
import Scaffold.Proofs.Text.Strip

namespace Scaffold.Json

mutual

/-- Whether a value can be written and read as text: its numbers are whole ones of at most
`Text.digitLimit` digits, and no name stands twice in an object. -/
def portable : Json → Bool
  | .number (.whole n) => n.natAbs < Text.numberLimit
  | .number _ => false
  | .array items => portableItems items
  | .object fields => decide (fields.map Prod.fst).Nodup && portableFields fields
  | _ => true

def portableItems : List Json → Bool
  | [] => true
  | item :: rest => portable item && portableItems rest

def portableFields : List (Text × Json) → Bool
  | [] => true
  | (_, value) :: rest => portable value && portableFields rest

end

variable {σ : Type} [DecidableEq σ] {dialect : Dialect σ} {f : Text → σ} {depth limit : Nat}
  {v : Json} {c : Char}

theorem lt_numberLimit_of_portable {n : Number} (h : portable (.number n) = true) :
    ∃ m, n = .whole m ∧ m.natAbs < Text.numberLimit := by
  cases n with
  | whole m =>
    rw [portable] at h
    exact ⟨m, rfl, of_decide_eq_true h⟩
  | decimal | nan | infinity => cases h

theorem printable_number {n : Number} (h : portable (.number n) = true) (limit : Nat) :
    printable limit (.number n) = true := by
  obtain ⟨m, rfl, hm⟩ := lt_numberLimit_of_portable h
  rw [printable]
  exact decide_eq_true hm

mutual

theorem printable_of_portable : ∀ (v : Json) (limit : Nat), portable v = true →
    v.depth ≤ limit → printable limit v = true
  | .null, limit, _, _ => by cases limit <;> rfl
  | .bool _, limit, _, _ => by cases limit <;> rfl
  | .string _, limit, _, _ => by cases limit <;> rfl
  | .number _, limit, h, _ => printable_number h limit
  | .array [], 0, _, _ => rfl
  | .array [], _ + 1, _, _ => rfl
  | .array (item :: rest), limit + 1, h, hdepth =>
    printableItems_of_portable (item :: rest) limit h (Nat.le_of_succ_le_succ hdepth)
  | .object [], 0, _, _ => rfl
  | .object [], _ + 1, _, _ => rfl
  | .object (field :: rest), limit + 1, h, hdepth => by
    obtain ⟨hnodup, hfields⟩ := Bool.and_eq_true_iff.1 h
    exact Bool.and_eq_true_iff.2 ⟨hnodup,
      printableFields_of_portable (field :: rest) limit hfields (Nat.le_of_succ_le_succ hdepth)⟩

theorem printableItems_of_portable : ∀ (items : List Json) (limit : Nat),
    portableItems items = true → itemsDepth items ≤ limit → printableItems limit items = true
  | [], _, _, _ => rfl
  | item :: rest, limit, h, hdepth => by
    obtain ⟨hitem, hrest⟩ := Bool.and_eq_true_iff.1 h
    obtain ⟨hfirst, hmore⟩ := Nat.max_le.1 hdepth
    exact Bool.and_eq_true_iff.2 ⟨printable_of_portable item limit hitem hfirst,
      printableItems_of_portable rest limit hrest hmore⟩

theorem printableFields_of_portable : ∀ (fields : List (Text × Json)) (limit : Nat),
    portableFields fields = true → fieldsDepth fields ≤ limit →
      printableFields limit fields = true
  | [], _, _, _ => rfl
  | (_, value) :: rest, limit, h, hdepth => by
    obtain ⟨hvalue, hrest⟩ := Bool.and_eq_true_iff.1 h
    obtain ⟨hfirst, hmore⟩ := Nat.max_le.1 hdepth
    exact Bool.and_eq_true_iff.2 ⟨printable_of_portable value limit hvalue hfirst,
      printableFields_of_portable rest limit hrest hmore⟩

end

theorem gap_space : Gap [' '] := by
  intro c hc
  cases List.mem_singleton.1 hc
  rfl

mutual

theorem spells_compact (hf : dialect.Embeds f) : ∀ (v : Json) (depth : Nat),
    printable depth v = true → Spells dialect depth (v.map f) (compact v)
  | .null, _, _ => .null
  | .bool true, _, _ => .true
  | .bool false, _, _ => .false
  | .number _, _, h => spells_number h
  | .string t, _, _ => .string safe_isAsciiPrintable (hf.string t)
  | .array [], _, _ => .noItems (g := []) nofun
  | .array (item :: rest), depth + 1, h => by
    have hall := spells_compactItems hf (item :: rest) depth h
    have hitems := spellsItems_join (g := []) nofun gap_space hall (List.cons_ne_nil _ _)
    exact .array (g := []) nofun hitems
  | .object [], _, _ => .noFields (g := []) nofun
  | .object ((name, value) :: rest), depth + 1, h => by
    obtain ⟨hnodup, hprintable⟩ := Bool.and_eq_true_iff.1 h
    have hall := spells_compactFields hf ((name, value) :: rest) depth hprintable
    have hfields := spellsFields_join (g := []) nofun gap_space hall (List.cons_ne_nil _ _)
    have hspells := Spells.object (g := []) nofun hfields
    rw [Entries.ofPairs_of_nodup (nodup_mapFields hf (of_decide_eq_true hnodup))] at hspells
    exact hspells

theorem spells_compactItems (hf : dialect.Embeds f) : ∀ (items : List Json) (depth : Nat),
    printableItems depth items = true →
      List.Forall₂ (Spells dialect depth) (mapItems f items) (compactItems items)
  | [], _, _ => .nil
  | item :: rest, depth, h =>
    have ⟨hitem, hrest⟩ := Bool.and_eq_true_iff.1 h
    .cons (spells_compact hf item depth hitem) (spells_compactItems hf rest depth hrest)

theorem spells_compactFields (hf : dialect.Embeds f) : ∀ (fields : List (Text × Json))
    (depth : Nat), printableFields depth fields = true →
      List.Forall₂ (SpellsField dialect depth) (mapFields f fields) (compactFields fields)
  | [], _, _ => .nil
  | (name, value) :: rest, depth, h =>
    have ⟨hvalue, hrest⟩ := Bool.and_eq_true_iff.1 h
    .cons ⟨_, _, List.append_assoc ..,
        dialect.spells_literal safe_isAsciiPrintable (hf.string name),
        spells_compact hf value depth hvalue⟩
      (spells_compactFields hf rest depth hrest)

end

theorem read_compact (hf : dialect.Embeds f) (hv : portable v = true)
    (hdepth : v.depth ≤ dialect.depth) : read dialect (compact v) = .ok (v.map f) := by
  have hspells : Spells dialect dialect.depth (v.map f) (compact v) :=
    spells_compact hf v dialect.depth (printable_of_portable v _ hv hdepth)
  have hread := read_of_spells (g := []) (h := []) hspells nofun nofun
  rw [List.nil_append, List.append_nil] at hread
  exact hread

theorem read_compact_deep (hf : dialect.Embeds f) (hv : portable v = true)
    (hdeep : dialect.depth < v.depth) : read dialect (compact v) = .error .tooDeep := by
  have hspells : Spells dialect v.depth (v.map f) (compact v) :=
    spells_compact hf v v.depth (printable_of_portable v _ hv le_rfl)
  rw [← depth_map f] at hdeep
  have hread := read_of_spells_deep (g := []) hspells hdeep nofun []
  rw [List.nil_append, List.append_nil] at hread
  exact hread

theorem starts_compact (hv : portable v = true) : Starts (compact v) := by
  have hspells := spells_compact (embeds_raw false v.depth) v v.depth
    (printable_of_portable v _ hv le_rfl)
  exact starts_of_spells hspells

theorem isAsciiPrintable_of_mem_literal {t : Text} (h : c ∈ literal isAsciiPrintable t) :
    isAsciiPrintable c = true :=
  (mem_literal h).elim id id

theorem isAsciiPrintable_of_mem_group {opening closing : Char} {ts : List Text}
    (hopening : isAsciiPrintable opening = true) (hclosing : isAsciiPrintable closing = true)
    (hts : ∀ t ∈ ts, ∀ c ∈ t, isAsciiPrintable c = true)
    (h : c ∈ [opening] ++ Text.join ", " ts ++ [closing]) : isAsciiPrintable c = true := by
  simp only [List.mem_append, List.mem_singleton] at h
  rcases h with (rfl | h) | rfl
  · exact hopening
  · rcases Text.mem_join h with h | ⟨t, ht, hc⟩
    · exact isAsciiPrintable_of_mem_word ", " (by decide) h
    · exact hts t ht c hc
  · exact hclosing

mutual

theorem isAsciiPrintable_of_mem_compact : ∀ (v : Json), ∀ c ∈ compact v,
    isAsciiPrintable c = true
  | .null, _, h => isAsciiPrintable_of_mem_word "null" (by decide) h
  | .bool true, _, h => isAsciiPrintable_of_mem_word "true" (by decide) h
  | .bool false, _, h => isAsciiPrintable_of_mem_word "false" (by decide) h
  | .number _, _, h => isAsciiPrintable_of_mem_number h
  | .string _, _, h => isAsciiPrintable_of_mem_literal h
  | .array items, _, h =>
    isAsciiPrintable_of_mem_group rfl rfl (isAsciiPrintable_of_mem_compactItems items) h
  | .object fields, _, h =>
    isAsciiPrintable_of_mem_group rfl rfl (isAsciiPrintable_of_mem_compactFields fields) h

theorem isAsciiPrintable_of_mem_compactItems : ∀ (items : List Json),
    ∀ t ∈ compactItems items, ∀ c ∈ t, isAsciiPrintable c = true
  | [] => nofun
  | item :: rest => List.forall_mem_cons.2
    ⟨isAsciiPrintable_of_mem_compact item, isAsciiPrintable_of_mem_compactItems rest⟩

theorem isAsciiPrintable_of_mem_compactFields : ∀ (fields : List (Text × Json)),
    ∀ t ∈ compactFields fields, ∀ c ∈ t, isAsciiPrintable c = true
  | [] => nofun
  | (name, value) :: rest => by
    refine List.forall_mem_cons.2 ⟨?_, isAsciiPrintable_of_mem_compactFields rest⟩
    intro c h
    rcases List.mem_append.1 h with h | h
    · rcases List.mem_append.1 h with h | h
      · exact isAsciiPrintable_of_mem_literal h
      · exact isAsciiPrintable_of_mem_word ": " (by decide) h
    · exact isAsciiPrintable_of_mem_compact value c h

end

theorem isBlank_eq_false (hc : isAsciiPrintable c = true) (hspace : c ≠ ' ') :
    Text.isBlank c = false := by
  have hne : c.toNat ≠ ' '.toNat := fun h => hspace (Char.toNat_inj.1 h)
  have hvalue : ' '.toNat = 0x20 := rfl
  rw [hvalue] at hne
  simp only [isAsciiPrintable, Bool.and_eq_true, decide_eq_true_eq] at hc
  simp only [Text.isBlank, Text.isWhiteSpace, CodePoints.has, Text.whiteSpace,
    Text.informationSeparators, List.any_cons, List.any_nil, Bool.or_eq_false_iff,
    Bool.and_eq_false_iff, decide_eq_false_iff_not, and_true]
  omega

theorem ne_space_of_mem_ofInt {n : Int} (h : c ∈ Text.ofInt n) : c ≠ ' ' := by
  rintro rfl
  have hdigits {m : Nat} (h : ' ' ∈ Nat.toDigits 10 m) : False := by
    have hdigit := Nat.isDigit_of_mem_toDigits (by decide) (by decide) h
    exact absurd hdigit (by decide)
  cases n with
  | ofNat n => exact hdigits h
  | negSucc n => exact hdigits ((List.mem_cons.1 h).resolve_left (by decide))

theorem getLast?_compact (hv : portable v = true) (hc : c ∈ (compact v).getLast?) : c ≠ ' ' := by
  cases v with
  | null => cases hc; decide
  | bool b => cases b <;> cases hc <;> decide
  | number n =>
    obtain ⟨m, rfl, -⟩ := lt_numberLimit_of_portable hv
    exact ne_space_of_mem_ofInt (List.mem_of_mem_getLast? hc)
  | string t =>
    rw [compact, literal, List.getLast?_concat] at hc
    cases hc
    decide
  | array items =>
    rw [compact] at hc
    cases (List.getLast?_concat (a := ']')).symm.trans hc
    decide
  | object fields =>
    rw [compact] at hc
    cases (List.getLast?_concat (a := '\x7d')).symm.trans hc
    decide

theorem strip_compact (hv : portable v = true) : Text.strip (compact v) = compact v := by
  apply Text.Trimmed.strip_eq
  constructor
  · intro c hc
    obtain ⟨d, more, heq, hgap, -⟩ := starts_compact hv
    have hd : d = c := by
      rw [heq] at hc
      exact Option.some.inj hc
    apply isBlank_eq_false (isAsciiPrintable_of_mem_compact v c (List.mem_of_mem_head? hc))
    rintro rfl
    rw [hd] at hgap
    cases hgap
  · intro c hc
    exact isBlank_eq_false (isAsciiPrintable_of_mem_compact v c (List.mem_of_mem_getLast? hc))
      (getLast?_compact hv hc)

end Scaffold.Json
