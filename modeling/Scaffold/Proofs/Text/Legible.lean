import Scaffold.Console.Styled
import Scaffold.Proofs.Text.Basic
import Scaffold.Proofs.Text.Case
import Scaffold.Text.UnprintableTable

namespace Scaffold

/-- Each range of a set lies in a range of another one. -/
def CodePoints.Within (points other : CodePoints) : Prop :=
  ∀ range ∈ points, ∃ wide ∈ other, wide.1 ≤ range.1 ∧ range.2 ≤ wide.2

instance (points other : CodePoints) : Decidable (points.Within other) :=
  inferInstanceAs <| Decidable <|
    ∀ range ∈ points, ∃ wide ∈ other, wide.1 ≤ range.1 ∧ range.2 ≤ wide.2

theorem CodePoints.Within.has {points other : CodePoints} (h : points.Within other) {c : Char}
    (hc : points.has c = true) : other.has c = true := by
  obtain ⟨range, hrange, hfirst, hlast⟩ := Text.CodePoints.has_iff.1 hc
  obtain ⟨wide, hwide, hbelow, habove⟩ := h range hrange
  exact Text.CodePoints.has_iff.2
    ⟨wide, hwide, Nat.le_trans hbelow hfirst, Nat.le_trans hlast habove⟩

namespace Text

/-- Every character of the text is printed as itself. -/
def Legible (t : Text) : Prop :=
  ∀ c ∈ t, unprintable.has c = false

instance (t : Text) : Decidable (Legible t) :=
  List.decidableBAll (fun c : Char => unprintable.has c = false) t

variable {t u : Text} {c : Char}

theorem Legible.of_sublist (h : Legible u) (ht : t.Sublist u) : Legible t :=
  fun c hc => h c (ht.subset hc)

theorem legible_append : Legible (t ++ u) ↔ Legible t ∧ Legible u :=
  List.forall_mem_append

theorem within_unprintable :
    CodePoints.Within ((whiteSpace ++ informationSeparators).filter (· ≠ (0x20, 0x20)))
      unprintable ∧
    lineBreaks.Within unprintable ∧ unprintable.has joiner = true := by
  decide +kernel

theorem eq_space_of_isBlank (hc : unprintable.has c = false) (hblank : isBlank c = true) :
    c = ' ' := by
  have hmem : (whiteSpace ++ informationSeparators).has c = true := by
    rw [CodePoints.has, List.any_append]
    exact hblank
  obtain ⟨range, hrange, hfirst, hlast⟩ := CodePoints.has_iff.1 hmem
  by_cases hspace : range = (0x20, 0x20)
  · subst hspace
    exact Char.toNat_inj.1 (Nat.le_antisymm hlast hfirst)
  · have hother := within_unprintable.1.has (CodePoints.has_iff.2
      ⟨range, List.mem_filter.2 ⟨hrange, decide_eq_true hspace⟩, hfirst, hlast⟩)
    rw [hc] at hother
    cases hother

theorem Legible.isBlank_getLast?_iff (h : Legible t) :
    (∀ c ∈ t.getLast?, isBlank c = false) ↔ t.getLast? ≠ some ' ' := by
  constructor
  · intro hlast hspace
    exact absurd (hlast ' ' hspace) (by decide)
  · intro hspace c hc
    rw [Bool.eq_false_iff]
    intro hblank
    exact hspace (eq_space_of_isBlank (h c (List.mem_of_getLast? hc)) hblank ▸ hc)

theorem isLineBreak_of_legible (hc : unprintable.has c = false) : isLineBreak c = false := by
  refine Bool.eq_false_iff.2 fun hbreak => ?_
  rw [within_unprintable.2.1.has hbreak] at hc
  cases hc

theorem Legible.notMem (h : Legible t) (hc : unprintable.has c = true) : c ∉ t := by
  intro hmem
  rw [h c hmem] at hc
  cases hc

theorem Legible.joiner_notMem (h : Legible t) : joiner ∉ t :=
  h.notMem within_unprintable.2.2

theorem Legible.newline_notMem (h : Legible t) : '\n' ∉ t :=
  h.notMem (by decide)

theorem Legible.tab_notMem (h : Legible t) : '\t' ∉ t :=
  h.notMem (by decide)

theorem Legible.cut_lineBreaks (h : Legible t) : cut isLineBreak t = [t] :=
  cut_of_forall fun c hc => isLineBreak_of_legible (h c hc)

theorem isUnprinted_of_legible (hc : unprintable.has c = false) :
    Console.isUnprinted c = false := by
  have hwithin : CodePoints.Within [(7, 8), (11, 13)] unprintable := by decide
  refine Bool.eq_false_iff.2 fun hmem => ?_
  have hcontrol : CodePoints.has [(7, 8), (11, 13)] c = true := by
    rw [Console.isUnprinted, decide_eq_true_iff] at hmem
    rw [CodePoints.has_iff]
    simp only [List.mem_cons, List.not_mem_nil, or_false, exists_eq_or_imp,
      exists_eq_left] at hmem ⊢
    omega
  rw [hwithin.has hcontrol] at hc
  cases hc

theorem Legible.printed_eq (h : Legible t) : Console.printed t = t :=
  List.filter_eq_self.2 fun c hc => by rw [isUnprinted_of_legible (h c hc)]; rfl

/-- All characters of the text are printable ones of ASCII. -/
def Basic (t : Text) : Prop :=
  ∀ c ∈ t, 0x20 ≤ c.toNat ∧ c.toNat ≤ 0x7E

instance (t : Text) : Decidable (Basic t) :=
  List.decidableBAll (fun c : Char => 0x20 ≤ c.toNat ∧ c.toNat ≤ 0x7E) t

theorem Basic.has_eq_false (h : Basic t) (points : CodePoints)
    (hpoints : ∀ range ∈ points, range.2 < 0x20 ∨ 0x7E < range.1) :
    ∀ c ∈ t, points.has c = false := by
  intro c hc
  refine Bool.eq_false_iff.2 fun hhas => ?_
  obtain ⟨range, hrange, hfirst, hlast⟩ := CodePoints.has_iff.1 hhas
  have hrange' := hpoints range hrange
  have hchar := h c hc
  omega

/-- None of the tables has a range that reaches into the printable characters of ASCII. -/
theorem tables_leave_out_basic : ∀ points ∈ [unprintable, zeroWidth, doubleWidth],
    ∀ range ∈ points, range.2 < 0x20 ∨ 0x7E < range.1 := by
  decide +kernel

theorem Basic.legible (h : Basic t) : Legible t :=
  h.has_eq_false unprintable (tables_leave_out_basic _ List.mem_cons_self)

end Text

end Scaffold
