import Mathlib.Data.List.Infix
import Scaffold.Proofs.Text.Word

namespace Scaffold

namespace Text

/-- Whether no occurrence of a marker begins in a text, whatever follows the text. -/
def passes (marker : Text) : Text → Bool
  | [] => true
  | c :: rest =>
    !marker.isPrefixOf (c :: rest) && !(c :: rest).isPrefixOf marker && passes marker rest

end Text

/-- A text that does not begin inside a word and that does not overlap with itself. -/
structure Marker where
  first : Char
  rest : Text
  outside : Text.isWordChar first = false
  apart : Text.passes (first :: rest) rest = true

namespace Marker

def text (m : Marker) : Text :=
  m.first :: m.rest

/-- What follows the occurrences of a marker in a text, the first one first. -/
def after (m : Marker) : Text → List Text
  | [] => []
  | c :: rest =>
    if m.text.isPrefixOf (c :: rest) then (c :: rest).drop m.text.length :: m.after rest
    else m.after rest

/-- What stands behind each occurrence, up to a character. -/
def read (m : Marker) (stop : Char) (t : Text) : List Text :=
  (m.after t).map (·.takeWhile (· ≠ stop))

variable {m : Marker} {t u : Text}

theorem mem_after : u ∈ m.after t ↔ ∃ before, before ++ m.text ++ u = t := by
  induction t with
  | nil =>
    constructor
    · intro h
      cases h
    · rintro ⟨before, h⟩
      rw [List.append_eq_nil_iff, List.append_eq_nil_iff] at h
      exact absurd h.1.2 (List.cons_ne_nil m.first m.rest)
  | cons c rest ih =>
    have hhere : m.text.isPrefixOf (c :: rest) = true ∧ u = (c :: rest).drop m.text.length ↔
        m.text ++ u = c :: rest := by
      rw [List.isPrefixOf_iff_prefix]
      constructor
      · rintro ⟨hoccurs, rfl⟩
        exact List.prefix_append_drop hoccurs |>.symm
      · intro h
        rw [← h]
        exact ⟨List.prefix_append m.text u, List.drop_left.symm⟩
    have hlater : u ∈ m.after rest ↔ ∃ d before, d :: before ++ m.text ++ u = c :: rest := by
      rw [ih]
      constructor
      · rintro ⟨before, rfl⟩
        exact ⟨c, before, rfl⟩
      · rintro ⟨d, before, h⟩
        exact ⟨before, (List.cons.inj h).2⟩
    have hsplit : u ∈ m.after (c :: rest) ↔
        m.text ++ u = c :: rest ∨ ∃ d before, d :: before ++ m.text ++ u = c :: rest := by
      rw [← hhere, ← hlater, after]
      split
      · simp [*]
      · simp [*]
    rw [hsplit]
    constructor
    · rintro (h | ⟨d, before, h⟩)
      · exact ⟨[], h⟩
      · exact ⟨d :: before, h⟩
    · rintro ⟨before, h⟩
      cases before with
      | nil => exact .inl h
      | cons d before => exact .inr ⟨d, before, h⟩

theorem after_append (h : Text.passes m.text t = true) (u : Text) :
    m.after (t ++ u) = m.after u := by
  induction t with
  | nil => rfl
  | cons c rest ih =>
    simp only [Text.passes, Bool.and_eq_true, Bool.not_eq_true'] at h
    obtain ⟨⟨hmarker, htext⟩, hrest⟩ := h
    rw [List.cons_append, after, if_neg, ih hrest]
    intro hoccurs
    have hoccurs : m.text <+: c :: rest ++ u := List.isPrefixOf_iff_prefix.1 hoccurs
    rcases List.prefix_or_prefix_of_prefix hoccurs (List.prefix_append (c :: rest) u) with hp | hp
    · rw [List.isPrefixOf_iff_prefix.2 hp] at hmarker
      cases hmarker
    · rw [List.isPrefixOf_iff_prefix.2 hp] at htext
      cases htext

theorem after_marker (m : Marker) (u : Text) : m.after (m.text ++ u) = u :: m.after u := by
  have hoccurs : m.text.isPrefixOf (m.first :: (m.rest ++ u)) = true := by
    rw [List.isPrefixOf_iff_prefix]
    exact List.prefix_append m.text u
  have hdrop : (m.text ++ u).drop m.text.length = u := List.drop_left
  calc m.after (m.text ++ u) = m.after (m.first :: (m.rest ++ u)) := rfl
    _ = (m.text ++ u).drop m.text.length :: m.after (m.rest ++ u) := if_pos hoccurs
    _ = u :: m.after (m.rest ++ u) := by rw [hdrop]
    _ = u :: m.after u := by rw [after_append m.apart]

/-- A marker that occurs only at the end of a text has behind it what follows the text. -/
theorem after_append_of_closes (h : m.after t = [[]]) (u : Text) :
    m.after (t ++ u) = u :: m.after u := by
  have hend : [] ∈ m.after t := by
    rw [h]
    exact List.mem_cons_self
  obtain ⟨before, rfl⟩ := mem_after.1 hend
  rw [List.append_nil] at h ⊢
  clear hend
  -- an occurrence before the last one would be counted in the text alone
  induction before with
  | nil => exact m.after_marker u
  | cons c rest ih =>
    have hlater : [] ∈ m.after (rest ++ m.text) := mem_after.2 ⟨rest, List.append_nil _⟩
    rw [List.cons_append, after] at h
    split at h
    · rw [(List.cons.inj h).2] at hlater
      cases hlater
    · rename_i hnot
      rw [List.cons_append, List.cons_append, after, if_neg, ih h]
      intro hoccurs
      apply hnot
      rw [List.isPrefixOf_iff_prefix] at hoccurs ⊢
      apply List.prefix_of_prefix_length_le hoccurs (List.prefix_append (c :: (rest ++ m.text)) u)
      simp only [List.length_cons, List.length_append]
      omega

theorem passes_of_notMem (h : m.first ∉ t) : Text.passes m.text t = true := by
  induction t with
  | nil => rfl
  | cons c rest ih =>
    have hne : m.first ≠ c := fun hc => h (hc ▸ List.mem_cons_self)
    rw [Text.passes, ih fun hm => h (List.mem_cons_of_mem c hm), text]
    simp [List.isPrefixOf, hne, hne.symm]

theorem after_word {w : Text} (hw : Text.IsWord w) (u : Text) : m.after (w ++ u) = m.after u :=
  after_append (passes_of_notMem (hw.notMem m.outside)) u

theorem after_suffix (t u : Text) : m.after u <:+ m.after (t ++ u) := by
  induction t with
  | nil => exact List.suffix_rfl
  | cons c rest ih =>
    rw [List.cons_append, after]
    split
    · exact ih.trans (List.suffix_cons _ _)
    · exact ih

/-- What is read last does not depend on the text before. -/
theorem getLast?_read_append {stop : Char} {v : Text} (t : Text) (h : m.read stop u = [v]) :
    (m.read stop (t ++ u)).getLast? = some v := by
  obtain ⟨before, hbefore⟩ := m.after_suffix t u
  unfold read at h ⊢
  rw [← hbefore, List.map_append, h, List.getLast?_append]
  rfl

end Marker

end Scaffold
