import Scaffold.Text.Blank
import Scaffold.Text.Case

/-!
The console that reports are printed on. Its width, its emojis and what it makes of the tags in
markup are left open; the fields that are proofs say what reports rely on.
-/

namespace Scaffold

structure Console where
  /-- The number of cells in a line. -/
  lineWidth : Nat
  /-- Whether a text is the code of an emoji, as `:smile:` may be. -/
  isEmoji : Text → Bool
  /-- A text with emojis in place of their codes. -/
  withEmojis : Text → Text
  /-- The name of a style in the form in which tags are compared, or what is wrong with it. -/
  styleName : Text → Except Text Text
  /-- What is wrong with the parameters of a tag for a handler. -/
  parameterFault? : Text → Option Text
  isEmoji_shape : ∀ t, isEmoji t = true → ∃ word, t = ':' :: (word ++ [':'])
  withEmojis_eq : ∀ t, (∀ u, u <:+: t → isEmoji u = false) → withEmojis t = t
  /-- The styles of messages are known, and none of them is a handler. -/
  styleName_eq : ∀ style ∈ (["bold green", "bold yellow", "bold red"] : List Text),
    ∃ name, styleName style = .ok name ∧ name.head? ≠ some '@'

/-- A console without emojis. It compares the names of tags without case and blanks at their ends,
and accepts all of them. -/
def Console.ofWidth (lineWidth : Nat) : Console where
  lineWidth
  isEmoji _ := false
  withEmojis t := t
  styleName name := .ok name.strip.lower
  parameterFault? _ := none
  isEmoji_shape := nofun
  withEmojis_eq _ _ := rfl
  styleName_eq := by
    intro style hstyle
    refine ⟨_, rfl, ?_⟩
    revert style
    decide

end Scaffold
