import Scaffold.Text.Blank

/-!
Raw texts, in which surrogates may stand alone: arguments that are not UTF-8 and escapes in JSON
texts bring them into the program. The texts are the raw texts without a surrogate
(`text?_eq_some`).
-/

namespace Scaffold

/-- A character, or a surrogate that is not one of a pair. -/
inductive RawChar where
  | char (c : Char)
  /-- A surrogate, counted from U+D800. -/
  | surrogate (n : Fin 0x800)
  deriving DecidableEq, Repr

namespace RawChar

/-- No surrogate is a blank. -/
def isBlank : RawChar → Bool
  | char c => Text.isBlank c
  | surrogate _ => false

/-- The raw character with the number of a UTF-16 code unit. -/
def ofUnit (n : Nat) : RawChar :=
  if h : 0xD800 ≤ n ∧ n < 0xE000 then surrogate ⟨n - 0xD800, by omega⟩ else char (Char.ofNat n)

end RawChar

abbrev RawText := List RawChar

/-- A text as a raw text. -/
def Text.raw (t : Text) : RawText :=
  t.map .char

theorem RawText.raw_eq_nil {t : Text} : t.raw = [] ↔ t = [] :=
  List.map_eq_nil_iff

instance : Coe Text RawText := ⟨Text.raw⟩

instance : Coe String RawText := ⟨fun s => Text.raw s⟩

namespace RawText

/-- A raw text with at least one character. -/
abbrev Filled := { t : RawText // t ≠ [] }

theorem Filled.ne_nil (t : Filled) : t.val ≠ [] := t.property

instance : Coe Text.Filled Filled := ⟨fun t => ⟨t.val.raw, mt raw_eq_nil.1 t.ne_nil⟩⟩

/-- The text that a raw text is, unless a surrogate stands in it. -/
def text? : RawText → Option Text
  | [] => some []
  | .char c :: rest => (text? rest).map (c :: ·)
  | .surrogate _ :: _ => none

/-- A raw text without the blank characters at its ends. -/
def strip (t : RawText) : RawText :=
  Text.trim RawChar.isBlank t

theorem text?_raw (t : Text) : t.raw.text? = some t := by
  induction t with
  | nil => rfl
  | cons c t ih => exact congrArg (Option.map (c :: ·)) ih

theorem text?_eq_some {t : RawText} {u : Text} : t.text? = some u ↔ t = u := by
  refine ⟨fun h => ?_, fun h => h ▸ text?_raw u⟩
  induction t generalizing u with
  | nil =>
    cases h
    rfl
  | cons c t ih =>
    cases c with
    | char c =>
      obtain ⟨more, hmore, rfl⟩ := Option.map_eq_some_iff.1 h
      exact congrArg (.char c :: ·) (ih hmore)
    | surrogate n => cases h

theorem raw_injective : Function.Injective Text.raw := by
  intro t u h
  have htext := text?_raw t
  rw [h, text?_raw] at htext
  exact (Option.some.inj htext).symm

end RawText

end Scaffold
