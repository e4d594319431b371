/-!
Texts, and the cutting, trimming and joining that the rest of the library is written with.
Joining the pieces that `cut` finds gives the text back (`join_cut`).
-/

namespace Scaffold

/-- A text is the list of its characters. None of them is a surrogate. -/
abbrev Text := List Char

instance : Coe String Text := ⟨String.toList⟩

namespace Text

/-- A text with at least one character. -/
abbrev Filled := { t : Text // t ≠ [] }

theorem Filled.ne_nil (t : Filled) : t.val ≠ [] := t.property

/-- The pieces of a text between the characters that satisfy `p`; there is always at least one. -/
def cut (p : Char → Bool) : Text → List Text
  | [] => [[]]
  | c :: rest =>
    if p c then [] :: cut p rest
    else match cut p rest with
      | [] => [[c]]
      | piece :: pieces => (c :: piece) :: pieces

/-- The texts of a list with a separator between neighbours. -/
def join (separator : Text) : List Text → Text
  | [] => []
  | [t] => t
  | t :: u :: rest => t ++ separator ++ join separator (u :: rest)

section

variable {α : Type _}

/-- A list without the elements at its end that satisfy `p`. -/
def trimEnd (p : α → Bool) : List α → List α
  | [] => []
  | c :: rest =>
    match trimEnd p rest with
    | [] => if p c then [] else [c]
    | kept => c :: kept

/-- A list without the elements at either end that satisfy `p`. -/
def trim (p : α → Bool) (t : List α) : List α :=
  trimEnd p (t.dropWhile p)

/-- What stands before and after the first `c` of a list, if it has one. -/
def cutFirst [DecidableEq α] (c : α) : List α → Option (List α × List α)
  | [] => none
  | d :: rest =>
    if d = c then some ([], rest)
    else (cutFirst c rest).map fun (before, after) => (d :: before, after)

end

/-- Whether one text begins with another. -/
def startsWith (start t : Text) : Bool :=
  start.isPrefixOf t

theorem cut_ne_nil (p : Char → Bool) (t : Text) : cut p t ≠ [] := by
  cases t with
  | nil => simp [cut]
  | cons c rest =>
    unfold cut
    split
    · simp
    · split <;> simp

theorem join_cons {t : Text} {ts : List Text} (separator : Text) (h : ts ≠ []) :
    join separator (t :: ts) = t ++ separator ++ join separator ts := by
  cases ts with
  | nil => exact absurd rfl h
  | cons u rest => rfl

theorem join_cut (c : Char) (t : Text) : join [c] (cut (· = c) t) = t := by
  induction t with
  | nil => rfl
  | cons d rest ih =>
    unfold cut
    by_cases h : d = c
    · rw [if_pos (by simp [h]), join_cons _ (cut_ne_nil _ _), ih, h]; rfl
    · rw [if_neg (by simp [h])]
      match hc : cut (· = c) rest with
      | [] => exact absurd hc (cut_ne_nil _ _)
      | [piece] => rw [hc] at ih; simpa [join] using ih
      | piece :: q :: pieces => rw [hc] at ih; simpa [join] using ih

/-- Trimming the end leaves nothing exactly where every character is trimmed. -/
theorem trimEnd_eq_nil_iff {α : Type _} {p : α → Bool} {t : List α} :
    trimEnd p t = [] ↔ ∀ c ∈ t, p c = true := by
  induction t with
  | nil => simp [trimEnd]
  | cons c rest ih =>
    unfold trimEnd
    split
    · rename_i h
      have hr := ih.1 h
      by_cases hc : p c = true
      · simp [hc]; exact hr
      · simp [hc]
    · rename_i h
      simp only [reduceCtorEq, List.mem_cons, forall_eq_or_imp, false_iff, not_and]
      intro _ hr
      exact h (ih.2 hr)

end Text

end Scaffold
