import Scaffold.Proofs.Text.Runs

namespace Scaffold.Text

/-- Letters and digits of ASCII, and the underscore. -/
def isWordChar (c : Char) : Bool :=
  c.isAlphanum || c = '_'

structure IsWord (t : Text) : Prop where
  ne_nil : t ≠ []
  all : ∀ c ∈ t, isWordChar c = true

instance (t : Text) : Decidable (IsWord t) :=
  decidable_of_iff (t ≠ [] ∧ t.all isWordChar = true)
    ⟨fun h => ⟨h.1, List.all_eq_true.1 h.2⟩, fun h => ⟨h.ne_nil, List.all_eq_true.2 h.all⟩⟩

/-- A text without any character of a word. -/
def isGap (t : Text) : Bool :=
  t.all fun c => !isWordChar c

/-- The word that a text begins with; empty if it begins with another character. -/
def firstWord (t : Text) : Text :=
  t.takeWhile isWordChar

def wordsIn (t : Text) : List Text :=
  (cut (fun c => !isWordChar c) t).filter (· ≠ [])

variable {t u w : Text} {c : Char}

theorem IsWord.notMem (hw : IsWord w) (hc : isWordChar c = false) : c ∉ w := by
  intro hm
  rw [hw.all c hm] at hc
  cases hc

theorem firstWord_append (hw : IsWord w) (hc : isWordChar c = false) (u : Text) :
    firstWord (w ++ c :: u) = w := by
  rw [firstWord]
  rw [List.takeWhile_append_of_pos hw.all, List.takeWhile_cons_of_neg (by simp [hc]),
    List.append_nil]

theorem dropWhile_append (hw : IsWord w) (hc : isWordChar c = false) (u : Text) :
    (w ++ c :: u).dropWhile isWordChar = c :: u := by
  rw [List.dropWhile_append_of_pos hw.all, List.dropWhile_cons_of_neg (by simp [hc])]

/-- The words are the runs between other characters. -/
theorem wordsIn_eq (t : Text) : wordsIn t = runs (fun c => !isWordChar c) t :=
  rfl

theorem wordsIn_of_word (hw : IsWord w) : wordsIn w = [w] :=
  runs_of_forall hw.ne_nil fun c hc => by rw [hw.all c hc]; rfl

theorem wordsIn_append_word (hw : IsWord w) (hc : isWordChar c = false) (u : Text) :
    wordsIn (w ++ c :: u) = w :: wordsIn u := by
  rw [wordsIn_eq, runs_separated (by rw [hc]; rfl), ← wordsIn_eq, ← wordsIn_eq, wordsIn_of_word hw]
  rfl

theorem isGap_cons : isGap (c :: t) = true ↔ isWordChar c = false ∧ isGap t = true := by
  simp [isGap]

theorem isGap_append (ht : isGap t = true) (hu : isGap u = true) : isGap (t ++ u) = true := by
  unfold isGap at *
  rw [List.all_append, ht, hu]
  rfl

theorem wordsIn_append_gap (ht : isGap t = true) (u : Text) : wordsIn (t ++ u) = wordsIn u := by
  induction t with
  | nil => rfl
  | cons c rest ih =>
    obtain ⟨hc, hrest⟩ := isGap_cons.1 ht
    rw [← ih hrest, List.cons_append, wordsIn_eq, runs_cons (by rw [hc]; rfl), wordsIn_eq]

theorem wordsIn_of_gap (ht : isGap t = true) : wordsIn t = [] := by
  have h := wordsIn_append_gap ht []
  rwa [List.append_nil] at h

theorem wordsIn_word_append (hw : IsWord w) (hu : isGap u = true) : wordsIn (w ++ u) = [w] := by
  cases u with
  | nil => rw [List.append_nil, wordsIn_of_word hw]
  | cons c rest =>
    obtain ⟨hc, hrest⟩ := isGap_cons.1 hu
    rw [wordsIn_append_word hw hc, wordsIn_of_gap hrest]

theorem wordsIn_join {gap : Text} {ws : List Text} (hgap : isGap gap = true) (hne : gap ≠ [])
    (hws : ∀ w ∈ ws, IsWord w) (hu : isGap u = true) : wordsIn (join gap ws ++ u) = ws := by
  obtain ⟨g, gap, rfl⟩ := List.exists_cons_of_ne_nil hne
  obtain ⟨hg, hgap⟩ := isGap_cons.1 hgap
  induction ws with
  | nil => exact wordsIn_of_gap hu
  | cons w rest ih =>
    have hw : IsWord w := hws w List.mem_cons_self
    cases rest with
    | nil => exact wordsIn_word_append hw hu
    | cons v rest =>
      rw [join_cons _ (List.cons_ne_nil v rest), List.append_assoc, List.append_assoc,
        List.cons_append, wordsIn_append_word hw hg, wordsIn_append_gap hgap,
        ih fun v hv => hws v (List.mem_cons_of_mem w hv)]

end Scaffold.Text
