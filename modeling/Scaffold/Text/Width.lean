import Scaffold.Text.WidthTable

/-!
The room that a text takes on a terminal line. Plain texts add up (`width_append`); others do not,
since a joiner makes one picture of its neighbours and a selector makes a symbol wider.
-/

namespace Scaffold.Text

/-- The room that a character takes on its own. -/
def charWidth (c : Char) : Nat :=
  if zeroWidth.has c then 0 else if doubleWidth.has c then 2 else 1

/-- The character that draws the next one into the picture before it. -/
def joiner : Char := '\u200D'

/-- The character that asks for the symbol before it to be drawn as an emoji. -/
def emojiSelector : Char := '\uFE0F'

/-- The room that a selector adds after `base`, the last character that takes room. -/
def selectorWidth (base : Option Char) : Nat :=
  if base.any emojiStyled.has then 1 else 0

/--
The room that a text adds after `base`, the last character before it that takes room; `joined` tells
that its first character takes none because a joiner stands before it.
-/
def widthAfter (base : Option Char) (joined : Bool) : Text → Nat
  | [] => 0
  | c :: rest =>
    if joined then widthAfter base false rest
    else if c = joiner then widthAfter base true rest
    else if c = emojiSelector then selectorWidth base + widthAfter none false rest
    else if charWidth c = 0 then widthAfter base false rest
    else charWidth c + widthAfter (some c) false rest

/-- The number of terminal cells that a text fills. -/
def width (t : Text) : Nat :=
  widthAfter none false t

/-- A plain text has neither a joiner nor a selector. -/
def Plain (t : Text) : Prop :=
  ∀ c ∈ t, c ≠ joiner ∧ c ≠ emojiSelector

theorem Plain.tail {c : Char} {rest : Text} (h : Plain (c :: rest)) : Plain rest :=
  fun d m => h d (List.mem_cons_of_mem _ m)

theorem widthAfter_cons_of_plain {c : Char} {rest : Text} (h : Plain (c :: rest))
    (base : Option Char) :
    ∃ next, widthAfter base false (c :: rest) = charWidth c + widthAfter next false rest := by
  obtain ⟨hj, hs⟩ := h c List.mem_cons_self
  by_cases hc : charWidth c = 0
  · exact ⟨base, by simp [widthAfter, hj, hs, hc]⟩
  · exact ⟨some c, by simp [widthAfter, hj, hs, hc]⟩

theorem widthAfter_of_plain {t : Text} (h : Plain t) (base : Option Char) :
    widthAfter base false t = width t := by
  induction t generalizing base with
  | nil => rfl
  | cons c rest ih =>
    obtain ⟨next, hn⟩ := widthAfter_cons_of_plain h base
    obtain ⟨other, ho⟩ := widthAfter_cons_of_plain h none
    rw [width, hn, ho, ih h.tail, ih h.tail]

theorem width_cons {c : Char} {rest : Text} (h : Plain (c :: rest)) :
    width (c :: rest) = charWidth c + width rest := by
  obtain ⟨next, hn⟩ := widthAfter_cons_of_plain h none
  rw [width, hn, widthAfter_of_plain h.tail]

theorem width_append {t u : Text} (h : Plain (t ++ u)) : width (t ++ u) = width t + width u := by
  induction t with
  | nil => simp [width, widthAfter]
  | cons c rest ih =>
    have ht : Plain (c :: rest) := fun d m => h d (List.mem_append_left u m)
    have hr := ih (Plain.tail h)
    rw [width_cons ht, Nat.add_assoc, ← hr]
    exact width_cons h

/-- A text with spaces after it up to a width. -/
def padEnd (cells : Nat) (t : Text) : Text :=
  t ++ List.replicate (cells - width t) ' '

end Scaffold.Text
