import Scaffold.Text.CodePoints

/-!
Blank characters: the white space of Unicode and the four information separators. Some of them are
line breaks.
-/

namespace Scaffold.Text

/-- The characters with the property White_Space. -/
def whiteSpace : CodePoints :=
  [(0x9, 0xD), (0x20, 0x20), (0x85, 0x85), (0xA0, 0xA0), (0x1680, 0x1680), (0x2000, 0x200A),
    (0x2028, 0x2029), (0x202F, 0x202F), (0x205F, 0x205F), (0x3000, 0x3000)]

/-- The file, group, record and unit separators. -/
def informationSeparators : CodePoints :=
  [(0x1C, 0x1F)]

/-- The line feed and whatever else ends a line, the unit separator not among them. -/
def lineBreaks : CodePoints :=
  [(0xA, 0xD), (0x1C, 0x1E), (0x85, 0x85), (0x2028, 0x2029)]

def isWhiteSpace (c : Char) : Bool :=
  whiteSpace.has c

def isBlank (c : Char) : Bool :=
  isWhiteSpace c || informationSeparators.has c

def isLineBreak (c : Char) : Bool :=
  lineBreaks.has c

/-- A text without the blank characters at its ends. -/
def strip (t : Text) : Text :=
  trim isBlank t

/-- A blank text has no character that is not blank. -/
def blank (t : Text) : Bool :=
  t.all isBlank

theorem strip_eq_nil_iff {t : Text} : strip t = [] ↔ blank t = true := by
  unfold strip trim blank
  rw [trimEnd_eq_nil_iff, List.all_eq_true]
  induction t with
  | nil => simp
  | cons c rest ih =>
    by_cases h : isBlank c = true
    · simp [h, ih]
    · simp [h]

end Scaffold.Text
