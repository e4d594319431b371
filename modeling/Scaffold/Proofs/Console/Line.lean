import Scaffold.Console.Layout
import Scaffold.Proofs.Text.Width

namespace Scaffold.Console

open Text

variable {t : Styled} {u other : Text} {line : Line} {cells : Nat}

namespace Styled

theorem withText_self (t : Styled) : t.withText t.text = t :=
  if_neg (Nat.lt_irrefl _)

@[simp] theorem text_withText (t : Styled) (other : Text) : (t.withText other).text = other := by
  rw [withText]
  split <;> rfl

theorem withText_withText (t : Styled) (other : Text) :
    (t.withText other).withText other = t.withText other := by
  have hself := withText_self (t.withText other)
  rwa [text_withText] at hself

theorem spans_withText (h : t.spans = []) (other : Text) : (t.withText other).spans = [] := by
  rw [withText, h]
  split <;> rfl

theorem divide_singleton (gap : Nat) (t : Styled) (piece : Text) : t.divide gap [piece] = [t] :=
  rfl

theorem expandTabs_of_legible (h : Legible t.text) : t.expandTabs = t := by
  rw [expandTabs, cut_char_of_notMem h.tab_notMem]

theorem lines_of_legible (h : Legible t.text) : t.lines = [t] := by
  rw [lines, cut_char_of_notMem h.newline_notMem, divide_singleton, List.map_singleton,
    expandTabs_of_legible h]

theorem runs_of_plain (h : t.spans = []) : t.runs = [t.text] := by
  have hgo (position : Nat) (run rest : Text) :
      runs.go t position run rest = [run ++ rest] := by
    induction rest generalizing position run with
    | nil => rw [runs.go, List.append_nil]
    | cons c rest ih =>
      rw [runs.go, if_neg (by simp [hasEdge, h]), ih, List.append_assoc, List.singleton_append]
  exact hgo 0 [] t.text

end Styled

namespace Line

theorem width_eq_sum (line : Line) : line.width = (line.map Text.width).sum := by
  have hfold (n : Nat) (line : Line) :
      line.foldl (fun total run => total + Text.width run) n =
        n + (line.map Text.width).sum := by
    induction line generalizing n with
    | nil => rfl
    | cons run rest ih => rw [List.foldl_cons, ih, List.map_cons, List.sum_cons, Nat.add_assoc]
  rw [width, hfold, Nat.zero_add]

theorem width_append (line other : Line) : width (line ++ other) = width line + width other := by
  rw [width_eq_sum, width_eq_sum, width_eq_sum, List.map_append, List.sum_append]

theorem width_singleton (run : Text) : width [run] = Text.width run :=
  Nat.zero_add _

theorem width_le_flatten (h : joiner ∉ line.flatten) : line.width ≤ Text.width line.flatten := by
  induction line with
  | nil => exact Nat.le_refl 0
  | cons run rest ih =>
    rw [List.flatten_cons, List.mem_append, not_or] at h
    have hrest := ih h.2
    have hpieces := width_add_le h.1 rest.flatten
    rw [width_eq_sum] at hrest ⊢
    rw [List.map_cons, List.sum_cons, List.flatten_cons]
    omega

theorem limit_of_fits (h : line.width ≤ cells) : limit cells line = line :=
  if_neg (Nat.not_lt.2 h)

theorem flatten_fill (h : line.width ≤ cells) :
    (fill cells line).flatten = line.flatten ++ List.replicate (cells - line.width) ' ' := by
  rw [fill]
  split
  · simp
  · rename_i hfull
    rw [limit_of_fits h, Nat.sub_eq_zero_of_le (Nat.not_lt.1 hfull), List.replicate_zero,
      List.append_nil]

theorem width_fill (h : line.width ≤ cells) : (fill cells line).width = cells := by
  rw [fill]
  split
  · rw [width_append, width_singleton, width_replicate_space]
    omega
  · rename_i hfull
    rw [limit_of_fits h]
    omega

end Line

theorem width_runs_le (h : Legible t.text) : Line.width t.runs ≤ Text.width t.text := by
  have hjoiner : joiner ∉ t.runs.flatten := t.flatten_runs.symm ▸ h.joiner_notMem
  have hruns := Line.width_le_flatten hjoiner
  rwa [t.flatten_runs] at hruns

theorem width_between_spaces (h : line.width ≤ cells) :
    Line.width ([[' ']] ++ Line.fill cells line ++ [[' ']]) = cells + 2 := by
  have hspace : Text.width [' '] = 1 := width_replicate_space 1
  rw [Line.width_append, Line.width_append, Line.width_fill h, Line.width_singleton, hspace]
  omega

theorem flatten_spaced (h : line.width ≤ cells) : (spaced cells line).flatten =
    ' ' :: (line.flatten ++ List.replicate (cells - line.width) ' ' ++ [' ']) := by
  have hwidth := width_between_spaces h
  rw [spaced, Line.flatten_fill hwidth.le, hwidth, Nat.sub_self, List.replicate_zero,
    List.append_nil, List.flatten_append, List.flatten_append, Line.flatten_fill h]
  rfl

theorem width_spaced (h : line.width ≤ cells) : (spaced cells line).width = cells + 2 :=
  Line.width_fill (width_between_spaces h).le

theorem requestedWidth_of_legible (h : Legible u) : requestedWidth u = Text.width u := by
  rw [requestedWidth, h.cut_lineBreaks]
  exact Nat.zero_max _

/-- What has room is laid out in one line. -/
theorem flow_of_fits (f : Flow) (h : Legible t.text) (hfits : Text.width t.text ≤ cells) :
    flow f cells t =
      [t.withText (if f.wraps then trimExcess cells t.text else t.text)] := by
  have hshorten (other : Text) (hother : other.Sublist t.text) :
      shorten f.overflow cells other = other :=
    shorten_of_fits f.overflow (Nat.le_trans (width_le_of_sublist h.joiner_notMem hother) hfits)
  rw [flow, Styled.lines_of_legible h, List.flatMap_singleton]
  split
  · have hkept : shorten f.overflow cells (trimExcess cells t.text) = trimExcess cells t.text :=
      hshorten _ (List.take_sublist _ _)
    rw [Styled.wrap, wrap_of_fits f.overflow h hfits, Styled.divide_singleton, List.map_singleton,
      List.map_singleton, Styled.text_withText, hkept, Styled.withText_withText]
  · rw [List.map_singleton, hshorten _ (List.Sublist.refl _)]

theorem ended_of_fits {console : Console} {ls : List Line}
    (h : ∀ line ∈ ls, line.width ≤ console.lineWidth) :
    ended console ls = (ls.map fun line => line.flatten ++ ['\n']).flatten := by
  rw [ended]
  refine congrArg List.flatten (List.map_congr_left fun line hline => ?_)
  rw [Line.limit_of_fits (h line hline)]

end Scaffold.Console
