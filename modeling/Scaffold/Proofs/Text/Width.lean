import Mathlib.Algebra.GroupWithZero.Nat
import Scaffold.Proofs.Text.Legible
import Scaffold.Proofs.Text.Strip
import Scaffold.Text.Wrap

namespace Scaffold.Text

variable {t u word line : Text} {c : Char} {base other : Option Char} {cells used : Nat}

/-- The characters of the text fill one cell each and do nothing to others. -/
def Narrow (t : Text) : Prop :=
  ∀ c ∈ t, c ≠ joiner ∧ c ≠ emojiSelector ∧ charWidth c = 1

instance (t : Text) : Decidable (Narrow t) :=
  List.decidableBAll (fun c => c ≠ joiner ∧ c ≠ emojiSelector ∧ charWidth c = 1) t

theorem Narrow.width_eq (h : Narrow t) : width t = t.length := by
  induction t with
  | nil => rfl
  | cons c rest ih =>
    obtain ⟨⟨-, -, hc⟩, hrest⟩ := List.forall_mem_cons.1 h
    have hplain : Plain (c :: rest) := fun d hd => ⟨(h d hd).1, (h d hd).2.1⟩
    rw [width_cons hplain, hc, ih hrest, List.length_cons, Nat.add_comm]

theorem Basic.narrow (h : Basic t) : Narrow t := by
  intro c hc
  obtain ⟨-, hlast⟩ := h c hc
  refine ⟨?_, ?_, ?_⟩
  · rintro rfl
    exact absurd hlast (by decide)
  · rintro rfl
    exact absurd hlast (by decide)
  · have hzero : zeroWidth.has c = false :=
      h.has_eq_false zeroWidth (tables_leave_out_basic _ (by simp)) c hc
    have hdouble : doubleWidth.has c = false :=
      h.has_eq_false doubleWidth (tables_leave_out_basic _ (by simp)) c hc
    rw [charWidth, hzero, hdouble]
    rfl

theorem Basic.width_eq (h : Basic t) : width t = t.length :=
  h.narrow.width_eq

/-- The room that a character other than a joiner adds after `base`. -/
def addedWidth (base : Option Char) (c : Char) : Nat :=
  if c = emojiSelector then selectorWidth base else charWidth c

/-- What the base is after that character. -/
def nextBase (base : Option Char) (c : Char) : Option Char :=
  if c = emojiSelector then none else if charWidth c = 0 then base else some c

theorem widthAfter_cons (hc : c ≠ joiner) (base : Option Char) (rest : Text) :
    widthAfter base false (c :: rest) =
      addedWidth base c + widthAfter (nextBase base c) false rest := by
  rw [widthAfter, if_neg Bool.false_ne_true, if_neg hc, addedWidth, nextBase]
  split
  · rfl
  · split
    · rename_i hzero
      rw [hzero, Nat.zero_add]
    · rfl

theorem selectorWidth_le_one (base : Option Char) : selectorWidth base ≤ 1 := by
  rw [selectorWidth]
  split
  · exact Nat.le_refl 1
  · exact Nat.zero_le 1

theorem widthAfter_mono (h : selectorWidth base ≤ selectorWidth other) (joined : Bool)
    (t : Text) : widthAfter base joined t ≤ widthAfter other joined t := by
  induction t generalizing joined with
  | nil => exact Nat.le_refl 0
  | cons c rest ih =>
    simp only [widthAfter]
    split_ifs with hjoined hjoiner hselector hzero
    · exact ih false
    · exact ih true
    · exact Nat.add_le_add_right h _
    · exact ih false
    · exact Nat.le_refl _

theorem widthAfter_congr (h : selectorWidth base = selectorWidth other) (joined : Bool)
    (t : Text) : widthAfter base joined t = widthAfter other joined t :=
  Nat.le_antisymm (widthAfter_mono h.le joined t) (widthAfter_mono h.ge joined t)

theorem width_le_widthAfter (base : Option Char) (t : Text) :
    width t ≤ widthAfter base false t := by
  have hnone : selectorWidth none ≤ selectorWidth base := Nat.zero_le _
  exact widthAfter_mono hnone false t

theorem widthAfter_le (base : Option Char) (joined : Bool) (t : Text) :
    widthAfter base joined t ≤ selectorWidth base + widthAfter none joined t := by
  induction t generalizing joined with
  | nil => exact Nat.zero_le _
  | cons c rest ih =>
    simp only [widthAfter]
    split_ifs with hjoined hjoiner hselector hzero
    · exact ih false
    · exact ih true
    · exact Nat.add_le_add_left (Nat.le_add_left _ _) _
    · exact ih false
    · exact Nat.le_add_left _ _

theorem exists_widthAfter_append (h : joiner ∉ t) (base : Option Char) : ∃ next, ∀ u,
    widthAfter base false (t ++ u) = widthAfter base false t + widthAfter next false u := by
  induction t generalizing base with
  | nil => exact ⟨base, fun u => (Nat.zero_add _).symm⟩
  | cons c rest ih =>
    obtain ⟨hc, hrest⟩ := not_or.1 (mt List.mem_cons.2 h)
    obtain ⟨next, hnext⟩ := ih hrest (nextBase base c)
    refine ⟨next, fun u => ?_⟩
    rw [List.cons_append, widthAfter_cons (Ne.symm hc), widthAfter_cons (Ne.symm hc), hnext,
      Nat.add_assoc]

/-- What is measured in two pieces takes no more room than the whole. -/
theorem width_add_le (h : joiner ∉ t) (u : Text) : width t + width u ≤ width (t ++ u) := by
  obtain ⟨next, hnext⟩ := exists_widthAfter_append h none
  rw [width, width, width, hnext]
  exact Nat.add_le_add_left (width_le_widthAfter next u) _

theorem widthAfter_cons_space (base : Option Char) (t : Text) :
    widthAfter base false (' ' :: t) = 1 + width t := by
  have hspace : Basic [' '] := by decide
  have hwidth : charWidth ' ' = 1 := (hspace.narrow ' ' List.mem_cons_self).2.2
  have hadded : addedWidth base ' ' = 1 := by
    rw [addedWidth, if_neg (by decide), hwidth]
  have hnext : selectorWidth (nextBase base ' ') = selectorWidth none := by
    rw [nextBase, if_neg (by decide), hwidth, if_neg (by decide)]
    decide
  rw [widthAfter_cons (by decide), hadded, widthAfter_congr hnext]
  rfl

theorem width_append_space (h : joiner ∉ t) (u : Text) :
    width (t ++ ' ' :: u) = width t + 1 + width u := by
  obtain ⟨next, hnext⟩ := exists_widthAfter_append h none
  rw [width, hnext, widthAfter_cons_space, ← Nat.add_assoc]
  rfl

theorem width_concat (h : joiner ∉ t) (hjoiner : c ≠ joiner) (hselector : c ≠ emojiSelector) :
    width (t ++ [c]) = width t + charWidth c := by
  obtain ⟨next, hnext⟩ := exists_widthAfter_append h none
  rw [width, hnext, widthAfter_cons hjoiner, addedWidth, if_neg hselector]
  rfl

theorem width_replicate_space (n : Nat) : width (List.replicate n ' ') = n := by
  induction n with
  | zero => rfl
  | succ n ih => rw [List.replicate_succ, width, widthAfter_cons_space, ih, Nat.add_comm]

theorem width_append_spaces (h : joiner ∉ t) (n : Nat) :
    width (t ++ List.replicate n ' ') = width t + n := by
  cases n with
  | zero => rw [List.replicate_zero, List.append_nil, Nat.add_zero]
  | succ n =>
    rw [List.replicate_succ, width_append_space h, width_replicate_space, Nat.add_assoc,
      Nat.add_comm 1 n]

/-- A character that is left out takes away no less room than it gives to a later selector. -/
theorem widthAfter_le_cons (hc : c ≠ joiner) (base : Option Char) (rest : Text) :
    widthAfter base false rest ≤ widthAfter base false (c :: rest) := by
  have hbase := widthAfter_le base false rest
  rw [widthAfter_cons hc, addedWidth, nextBase]
  split_ifs with hselector hzero
  · exact hbase
  · exact Nat.le_add_left _ _
  · have hone := selectorWidth_le_one base
    have hnone := width_le_widthAfter (some c) rest
    rw [width] at hnone
    omega

theorem widthAfter_le_of_sublist (h : joiner ∉ u) (ht : t.Sublist u) (base : Option Char) :
    widthAfter base false t ≤ widthAfter base false u := by
  induction ht generalizing base with
  | slnil => exact Nat.le_refl _
  | cons c _ ih =>
    obtain ⟨hc, hrest⟩ := not_or.1 (mt List.mem_cons.2 h)
    exact Nat.le_trans (ih hrest base) (widthAfter_le_cons (Ne.symm hc) base _)
  | cons_cons c _ ih =>
    obtain ⟨hc, hrest⟩ := not_or.1 (mt List.mem_cons.2 h)
    rw [widthAfter_cons (Ne.symm hc), widthAfter_cons (Ne.symm hc)]
    exact Nat.add_le_add_left (ih hrest _) _

theorem width_le_of_sublist (h : joiner ∉ u) (ht : t.Sublist u) : width t ≤ width u :=
  widthAfter_le_of_sublist h ht none

theorem flatten_wordsWithBlanks_go (h : blank (word ++ t) = false) :
    (wordsWithBlanks.go word t).flatten = word ++ t := by
  induction t generalizing word with
  | nil =>
    rw [List.append_nil] at h ⊢
    rw [wordsWithBlanks.go, h]
    exact List.flatten_singleton
  | cons c rest ih =>
    have hmore : word ++ c :: rest = word ++ [c] ++ rest := by
      rw [List.append_assoc, List.singleton_append]
    rw [hmore] at h ⊢
    cases rest with
    | nil =>
      rw [List.append_nil] at h ⊢
      rw [wordsWithBlanks.go, h]
      exact List.flatten_singleton
    | cons d rest =>
      rw [wordsWithBlanks.go]
      split
      · rename_i hsplit
        simp only [Bool.and_eq_true, Bool.not_eq_true'] at hsplit
        obtain ⟨⟨-, hd⟩, -⟩ := hsplit
        have hword : blank ([] ++ d :: rest) = false := by
          simp [blank, hd]
        rw [List.flatten_cons, ih hword, List.nil_append]
      · exact ih h

theorem sum_width_wordsWithBlanks_go (h : Legible (word ++ t)) :
    ((wordsWithBlanks.go word t).map width).sum ≤ width (word ++ t) := by
  induction t generalizing word with
  | nil =>
    rw [wordsWithBlanks.go, List.append_nil]
    split
    · exact Nat.zero_le _
    · exact Nat.le_refl _
  | cons c rest ih =>
    have hmore : word ++ c :: rest = word ++ [c] ++ rest := by
      rw [List.append_assoc, List.singleton_append]
    cases rest with
    | nil =>
      rw [wordsWithBlanks.go]
      split
      · exact Nat.zero_le _
      · exact Nat.le_refl _
    | cons d rest =>
      rw [wordsWithBlanks.go]
      split
      · have hpieces := width_add_le (legible_append.1 (hmore ▸ h)).1.joiner_notMem (d :: rest)
        have hrest : ((wordsWithBlanks.go [] (d :: rest)).map width).sum ≤ width (d :: rest) :=
          @ih [] (legible_append.1 (hmore ▸ h)).2
        rw [List.map_cons, List.sum_cons, hmore]
        omega
      · rw [hmore]
        exact ih (hmore ▸ h)

theorem fillLines_of_fits (overflow : Overflow) {words : List Text}
    (hwords : ∀ word ∈ words, Legible word) (h : used + (words.map width).sum ≤ cells) :
    fillLines overflow cells line used words = [line ++ words.flatten] := by
  induction words generalizing line used with
  | nil => rw [fillLines, List.flatten_nil, List.append_nil]
  | cons word rest ih =>
    obtain ⟨hword, hrest⟩ := List.forall_mem_cons.1 hwords
    have htrimmed : width (trimEnd isBlank word) ≤ width word :=
      width_le_of_sublist hword.joiner_notMem (trimEnd_isPrefix isBlank word).sublist
    rw [List.map_cons, List.sum_cons] at h
    rw [fillLines, if_pos (by omega), ih hrest (by omega), List.flatten_cons, List.append_assoc]

theorem wrap_of_fits (overflow : Overflow) (ht : Legible t) (h : width t ≤ cells) :
    wrap overflow cells t = [t] := by
  rw [wrap]
  cases hblank : blank t with
  | true => rfl
  | false =>
    have hflatten : (wordsWithBlanks t).flatten = t := flatten_wordsWithBlanks_go hblank
    have hwords (word : Text) (hword : word ∈ wordsWithBlanks t) : Legible word := by
      intro c hc
      exact ht c (hflatten ▸ List.mem_flatten.2 ⟨word, hword, hc⟩)
    have hsum : 0 + ((wordsWithBlanks t).map width).sum ≤ cells := by
      rw [Nat.zero_add]
      have hgo : ((wordsWithBlanks.go [] t).map width).sum ≤ width ([] ++ t) :=
        sum_width_wordsWithBlanks_go ht
      exact hgo.trans h
    rw [if_neg Bool.false_ne_true, fillLines_of_fits overflow hwords hsum, List.nil_append,
      hflatten]

theorem shorten_of_fits (overflow : Overflow) (h : width t ≤ cells) :
    shorten overflow cells t = t :=
  if_pos h

theorem trimExcess_eq_self_iff :
    trimExcess cells t = t ↔ t.length ≤ cells ∨ ∀ c ∈ t.getLast?, isBlank c = false := by
  have hmax : t.length ≤ max (trimEnd isBlank t).length cells ↔
      t.length ≤ cells ∨ t.length ≤ (trimEnd isBlank t).length := by
    omega
  rw [trimExcess, List.take_eq_self_iff, hmax]
  refine or_congr_right ⟨fun hlength c hc => ?_, fun hlast => ?_⟩
  · have hself := (trimEnd_isPrefix isBlank t).eq_of_length_le hlength
    exact getLast?_trimEnd (hself ▸ hc)
  · rw [trimEnd_eq_self hlast]

/-- Only spaces are trimmed off a legible line. -/
theorem exists_trimExcess (ht : Legible t) (cells : Nat) :
    ∃ n, t = trimExcess cells t ++ List.replicate n ' ' := by
  obtain ⟨after, hafter, hblank⟩ := exists_trimEnd isBlank t
  let kept := max (trimEnd isBlank t).length cells
  have hdrop : t.drop kept = after.drop (kept - (trimEnd isBlank t).length) := by
    have hall := congrArg (List.drop kept) hafter
    rwa [List.drop_append, List.drop_eq_nil_of_le (Nat.le_max_left _ _), List.nil_append] at hall
  have hspaces : t.drop kept = List.replicate (t.drop kept).length ' ' := by
    apply List.eq_replicate_of_mem
    intro c hc
    refine eq_space_of_isBlank (ht c (List.mem_of_mem_drop hc)) (hblank c ?_)
    rw [hdrop] at hc
    exact List.mem_of_mem_drop hc
  exact ⟨_, hspaces ▸ (List.take_append_drop kept t).symm⟩

theorem padEnd_trimExcess (ht : Legible t) (excess cells : Nat) (h : width t ≤ cells) :
    padEnd cells (trimExcess excess t) = padEnd cells t := by
  obtain ⟨n, hn⟩ := exists_trimExcess ht excess
  have hwidth : width t = width (trimExcess excess t) + n := by
    have hkept : Legible (trimExcess excess t) := ht.of_sublist (List.take_sublist _ _)
    rw [← width_append_spaces hkept.joiner_notMem, ← hn]
  rw [padEnd, padEnd]
  nth_rewrite 3 [hn]
  rw [List.append_assoc, List.replicate_append_replicate]
  congr 2
  omega

end Scaffold.Text
