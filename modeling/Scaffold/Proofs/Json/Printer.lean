import Mathlib.Data.List.Forall2
import Scaffold.Json.Printer
import Scaffold.Proofs.Entries
import Scaffold.Proofs.Json.Grammar
import Scaffold.Proofs.Json.Map
import Scaffold.Proofs.Text.Basic

namespace Scaffold.Json

mutual

/-- Whether a value can be printed so that it can be read back, with arrays and objects nested at
most so deep. -/
def printable : Nat → Json → Bool
  | _, .number (.whole n) => n.natAbs < Text.numberLimit
  | _, .number _ => false
  | 0, .array items => items.isEmpty
  | depth + 1, .array items => printableItems depth items
  | 0, .object fields => fields.isEmpty
  | depth + 1, .object fields => decide (fields.map Prod.fst).Nodup && printableFields depth fields
  | _, _ => true

def printableItems (depth : Nat) : List Json → Bool
  | [] => true
  | item :: rest => printable depth item && printableItems depth rest

def printableFields (depth : Nat) : List (Text × Json) → Bool
  | [] => true
  | (_, value) :: rest => printable depth value && printableFields depth rest

end

variable {σ : Type} [DecidableEq σ] {dialect : Dialect σ} {f : Text → σ} {depth : Nat}
  {plain : Char → Bool} {ts : List Text} {g h : Text}

/-- A dialect that reads a text as the string `f` makes of it, and different texts as different
ones. -/
structure Dialect.Embeds (dialect : Dialect σ) (f : Text → σ) : Prop where
  string (t : Text) : dialect.string t.raw = .ok (f t)
  injective : Function.Injective f

theorem embeds_raw (boundsDecimals : Bool) (depth : Nat) :
    Dialect.Embeds ⟨.ok, boundsDecimals, depth⟩ Text.raw :=
  ⟨fun _ => rfl, RawText.raw_injective⟩

/-- A text that spells a field: the name, a colon and a space, and the value. -/
def SpellsField (dialect : Dialect σ) (depth : Nat) (field : σ × Json σ) (t : Text) : Prop :=
  ∃ s u, t = s ++ ':' :: ' ' :: u ∧ dialect.SpellsString field.1 s ∧
    Spells dialect depth field.2 u

theorem spellsItems_join {items : List (Json σ)} (hg : Gap g) (hh : Gap h)
    (hall : List.Forall₂ (Spells dialect depth) items ts) (hne : items ≠ []) :
    SpellsItems dialect depth items (Text.join (',' :: h) ts ++ (g ++ [']'])) := by
  induction hall with
  | nil => exact absurd rfl hne
  | cons hitem hrest ih =>
    cases hrest with
    | nil => exact .lastItem hitem hg
    | cons hnext hmore =>
      have hitems := ih (List.cons_ne_nil _ _)
      have hspells := SpellsItems.nextItem (g := []) hitem nofun hh hitems
      rw [Text.join_cons _ (List.cons_ne_nil _ _)]
      simpa only [List.append_assoc, List.cons_append, List.nil_append] using hspells

theorem spellsFields_join {fields : Entries (Json σ) σ} (hg : Gap g) (hh : Gap h)
    (hall : List.Forall₂ (SpellsField dialect depth) fields ts) (hne : fields ≠ []) :
    SpellsFields dialect depth fields (Text.join (',' :: h) ts ++ (g ++ ['\x7d'])) := by
  have hspace : Gap [' '] := by
    intro c hc
    cases List.mem_singleton.1 hc
    rfl
  induction hall with
  | nil => exact absurd rfl hne
  | @cons field t _ _ hfield hrest ih =>
    obtain ⟨name, value⟩ := field
    obtain ⟨s, u, rfl, hname, hvalue⟩ := hfield
    cases hrest with
    | nil =>
      have hspells := SpellsFields.lastField (g := []) hname nofun hspace hvalue hg
      rw [Text.join, List.append_assoc]
      exact hspells
    | cons hnext hmore =>
      have hfields := ih (List.cons_ne_nil _ _)
      have hspells := SpellsFields.nextField (g := []) (k := []) hname nofun hspace hvalue nofun hh
        hfields
      rw [Text.join_cons _ (List.cons_ne_nil _ _)]
      simpa only [List.append_assoc, List.cons_append, List.nil_append] using hspells

omit [DecidableEq σ] in
theorem nodup_mapFields {fields : List (Text × Json)} (hf : dialect.Embeds f)
    (h : (fields.map Prod.fst).Nodup) : (Entries.keys (mapFields f fields)).Nodup := by
  rw [keys_mapFields]
  exact h.map hf.injective

/-- The line break before a member, with the spaces that move it in. -/
def newline (indent : Nat) : Text :=
  '\n' :: List.replicate (2 * indent) ' '

theorem gap_newline (indent : Nat) : Gap (newline indent) := by
  intro c hc
  rcases List.mem_cons.1 hc with rfl | hc
  · rfl
  · rw [List.eq_of_mem_replicate hc]
    rfl

theorem newline_append (indent : Nat) : newline indent ++ "  " = newline (indent + 1) :=
  congrArg ('\n' :: ·) (List.replicate_append_replicate (m := 2))

theorem block_eq (indent : Nat) (opening closing : Char) (hne : ts ≠ []) :
    block indent opening closing ts = opening :: (newline (indent + 1) ++
      (Text.join (',' :: newline (indent + 1)) ts ++ (newline indent ++ [closing]))) := by
  cases ts with
  | nil => exact absurd rfl hne
  | cons t rest =>
    rw [← newline_append]
    simp only [block, newline, List.append_assoc, List.cons_append, List.nil_append]

theorem spells_number {n : Number} (h : printable depth (.number n) = true) :
    Spells dialect depth (.number n) n.toText := by
  cases n with
  | whole n =>
    rw [printable] at h
    exact .whole (of_decide_eq_true h)
  | decimal | nan | infinity => cases h

mutual

/-- A value that can be printed is spelled by its printed form. -/
theorem spells_indented (hf : dialect.Embeds f) (hplain : Safe plain) : ∀ (v : Json)
    (depth indent : Nat), printable depth v = true →
      Spells dialect depth (v.map f) (indented plain indent v)
  | .null, _, _, _ => .null
  | .bool true, _, _, _ => .true
  | .bool false, _, _, _ => .false
  | .number _, _, _, h => spells_number h
  | .string t, _, _, _ => .string hplain (hf.string t)
  | .array [], _, _, _ => .noItems (g := []) nofun
  | .array (item :: rest), depth + 1, indent, h => by
    have hall := spells_indentedItems hf hplain (item :: rest) depth (indent + 1) h
    have hitems := spellsItems_join (gap_newline indent) (gap_newline (indent + 1)) hall
      (List.cons_ne_nil _ _)
    have hne : indentedItems plain (indent + 1) (item :: rest) ≠ [] := List.cons_ne_nil _ _
    rw [indented, block_eq indent '[' ']' hne]
    exact .array (gap_newline (indent + 1)) hitems
  | .object [], _, _, _ => .noFields (g := []) nofun
  | .object ((name, value) :: rest), depth + 1, indent, h => by
    obtain ⟨hnodup, hprintable⟩ := Bool.and_eq_true_iff.1 h
    have hall := spells_indentedFields hf hplain ((name, value) :: rest) depth (indent + 1)
      hprintable
    have hfields := spellsFields_join (gap_newline indent) (gap_newline (indent + 1)) hall
      (List.cons_ne_nil _ _)
    have hspells := Spells.object (gap_newline (indent + 1)) hfields
    -- What is read is put together field by field; distinct names stay where they are.
    rw [Entries.ofPairs_of_nodup (nodup_mapFields hf (of_decide_eq_true hnodup))] at hspells
    have hne : indentedFields plain (indent + 1) ((name, value) :: rest) ≠ [] :=
      List.cons_ne_nil _ _
    rw [indented, block_eq indent '\x7b' '\x7d' hne]
    exact hspells

theorem spells_indentedItems (hf : dialect.Embeds f) (hplain : Safe plain) : ∀ (items : List Json)
    (depth indent : Nat), printableItems depth items = true →
      List.Forall₂ (Spells dialect depth) (mapItems f items) (indentedItems plain indent items)
  | [], _, _, _ => .nil
  | item :: rest, depth, indent, h =>
    have ⟨hitem, hrest⟩ := Bool.and_eq_true_iff.1 h
    .cons (spells_indented hf hplain item depth indent hitem)
      (spells_indentedItems hf hplain rest depth indent hrest)

theorem spells_indentedFields (hf : dialect.Embeds f) (hplain : Safe plain) :
    ∀ (fields : List (Text × Json)) (depth indent : Nat), printableFields depth fields = true →
      List.Forall₂ (SpellsField dialect depth) (mapFields f fields)
        (indentedFields plain indent fields)
  | [], _, _, _ => .nil
  | (name, value) :: rest, depth, indent, h =>
    have ⟨hvalue, hrest⟩ := Bool.and_eq_true_iff.1 h
    .cons ⟨_, _, List.append_assoc .., dialect.spells_literal hplain (hf.string name),
        spells_indented hf hplain value depth indent hvalue⟩
      (spells_indentedFields hf hplain rest depth indent hrest)

end

theorem read_indented {v : Json} (hf : dialect.Embeds f) (hplain : Safe plain)
    (hv : printable dialect.depth v = true) (hg : Gap g) (hh : Gap h) (indent : Nat) :
    read dialect (g ++ (indented plain indent v ++ h)) = .ok (v.map f) :=
  read_of_spells (spells_indented hf hplain v dialect.depth indent hv) hg hh

theorem isAsciiPrintable_of_mem_word {d : Char} (word : Text)
    (hword : word.all isAsciiPrintable = true) (h : d ∈ word) : isAsciiPrintable d = true :=
  List.all_eq_true.1 hword d h

theorem isAsciiPrintable_of_isDigit {d : Char} (h : d.isDigit = true) :
    isAsciiPrintable d = true := by
  simp only [Char.isDigit, Bool.and_eq_true, decide_eq_true_eq, ge_iff_le,
    UInt32.le_iff_toNat_le] at h
  simp only [isAsciiPrintable, Bool.and_eq_true, decide_eq_true_eq, Char.toNat]
  exact ⟨Nat.le_trans (by decide) h.1, Nat.le_trans h.2 (by decide)⟩

theorem isAsciiPrintable_of_mem_ofInt {n : Int} {d : Char} (h : d ∈ Text.ofInt n) :
    isAsciiPrintable d = true := by
  have hdigits {m : Nat} (h : d ∈ Nat.toDigits 10 m) : isAsciiPrintable d = true :=
    isAsciiPrintable_of_isDigit (Nat.isDigit_of_mem_toDigits (by decide) (by decide) h)
  cases n with
  | ofNat n => exact hdigits h
  | negSucc n =>
    rcases List.mem_cons.1 h with rfl | h
    · rfl
    · exact hdigits h

theorem isAsciiPrintable_of_mem_number {n : Number} {d : Char} (h : d ∈ n.toText) :
    isAsciiPrintable d = true := by
  cases n with
  | whole n => exact isAsciiPrintable_of_mem_ofInt h
  | decimal significand exponent =>
    rcases List.mem_append.1 h with h | h
    · rcases List.mem_append.1 h with h | h
      · exact isAsciiPrintable_of_mem_ofInt h
      · exact isAsciiPrintable_of_mem_word "e" (by decide) h
    · exact isAsciiPrintable_of_mem_ofInt h
  | nan => exact isAsciiPrintable_of_mem_word "NaN" (by decide) h
  | infinity negative =>
    cases negative with
    | false => exact isAsciiPrintable_of_mem_word "Infinity" (by decide) h
    | true => exact isAsciiPrintable_of_mem_word "-Infinity" (by decide) h

/-- A character that a printer may write. -/
def Written (plain : Char → Bool) (d : Char) : Prop :=
  d = '\n' ∨ isAsciiPrintable d = true ∨ plain d = true

theorem written_newline {indent : Nat} {d : Char} (h : d ∈ newline indent) : Written plain d := by
  rcases List.mem_cons.1 h with rfl | h
  · exact .inl rfl
  · rw [List.eq_of_mem_replicate h]
    exact .inr (.inl rfl)

theorem written_block {indent : Nat} {opening closing d : Char}
    (hopening : isAsciiPrintable opening = true) (hclosing : isAsciiPrintable closing = true)
    (hts : ∀ t ∈ ts, ∀ d ∈ t, Written plain d) (h : d ∈ block indent opening closing ts) :
    Written plain d := by
  by_cases hne : ts = []
  · subst hne
    rcases List.mem_cons.1 h with rfl | h
    · exact .inr (.inl hopening)
    · cases List.mem_singleton.1 h
      exact .inr (.inl hclosing)
  · rw [block_eq _ _ _ hne] at h
    simp only [List.mem_cons, List.mem_append, List.not_mem_nil, or_false] at h
    rcases h with rfl | h | h | h | rfl
    · exact .inr (.inl hopening)
    · exact written_newline h
    · rcases Text.mem_join h with h | ⟨t, ht, hd⟩
      · rcases List.mem_cons.1 h with rfl | h
        · exact .inr (.inl rfl)
        · exact written_newline h
      · exact hts t ht d hd
    · exact written_newline h
    · exact .inr (.inl hclosing)

mutual

theorem written_indented : ∀ (v : Json) (indent : Nat), ∀ d ∈ indented plain indent v,
    Written plain d
  | .null, _, _, h => .inr (.inl (isAsciiPrintable_of_mem_word "null" (by decide) h))
  | .bool true, _, _, h => .inr (.inl (isAsciiPrintable_of_mem_word "true" (by decide) h))
  | .bool false, _, _, h => .inr (.inl (isAsciiPrintable_of_mem_word "false" (by decide) h))
  | .number _, _, _, h => .inr (.inl (isAsciiPrintable_of_mem_number h))
  | .string _, _, _, h => .inr (mem_literal h)
  | .array items, indent, _, h =>
    written_block rfl rfl (written_indentedItems items (indent + 1)) h
  | .object fields, indent, _, h =>
    written_block rfl rfl (written_indentedFields fields (indent + 1)) h

theorem written_indentedItems : ∀ (items : List Json) (indent : Nat),
    ∀ t ∈ indentedItems plain indent items, ∀ d ∈ t, Written plain d
  | [], _ => nofun
  | item :: rest, indent =>
    List.forall_mem_cons.2 ⟨written_indented item indent, written_indentedItems rest indent⟩

theorem written_indentedFields : ∀ (fields : List (Text × Json)) (indent : Nat),
    ∀ t ∈ indentedFields plain indent fields, ∀ d ∈ t, Written plain d
  | [], _ => nofun
  | (name, value) :: rest, indent => by
    refine List.forall_mem_cons.2 ⟨?_, written_indentedFields rest indent⟩
    intro d h
    rcases List.mem_append.1 h with h | h
    · rcases List.mem_append.1 h with h | h
      · exact .inr (mem_literal h)
      · exact .inr (.inl (isAsciiPrintable_of_mem_word ": " (by decide) h))
    · exact written_indented value indent d h

end

end Scaffold.Json
