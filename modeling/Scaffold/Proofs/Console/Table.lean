import Mathlib.Algebra.Order.BigOperators.Group.List
import Mathlib.Algebra.Order.Group.Nat
import Scaffold.Proofs.Console.Line
import Scaffold.Proofs.Console.Rendering

namespace Scaffold.Console

open Text

variable {console : Console} {t : Styled} {n cells : Nat} {columns : List (Column Styled)}

theorem greatest_le_iff {ns : List Nat} : greatest ns ≤ n ↔ ∀ m ∈ ns, m ≤ n := by
  have hfold (start : Nat) : ns.foldl max start ≤ n ↔ start ≤ n ∧ ∀ m ∈ ns, m ≤ n := by
    induction ns generalizing start with
    | nil => simp
    | cons m ns ih => rw [List.foldl_cons, ih, List.forall_mem_cons, Nat.max_le, and_assoc]
  rw [greatest, hfold]
  exact and_iff_right (Nat.zero_le n)

theorem le_greatest {ns : List Nat} (h : n ∈ ns) : n ≤ greatest ns :=
  greatest_le_iff.1 (Nat.le_refl _) n h

theorem tableWidth_eq (widths : List Nat) :
    tableWidth widths = widths.sum + 3 * widths.length + 1 := by
  have hfold (start : Nat) : widths.foldl (fun total w => total + w + 3) start =
      widths.sum + 3 * widths.length + start := by
    induction widths generalizing start with
    | nil => exact (Nat.zero_add start).symm
    | cons w widths ih =>
      rw [List.foldl_cons, ih, List.sum_cons, List.length_cons]
      omega
  exact hfold 1

theorem sum_map_add_two (widths : List Nat) :
    (widths.map (· + 2)).sum = widths.sum + 2 * widths.length := by
  induction widths with
  | nil => rfl
  | cons w widths ih =>
    rw [List.map_cons, List.sum_cons, ih, List.sum_cons, List.length_cons]
    omega

theorem columnWidths_of_fits
    (h : tableWidth (columns.map Column.requestedWidth) ≤ console.lineWidth) :
    columnWidths console columns = columns.map Column.requestedWidth := by
  have hasked : (columns.map fun column => min column.requestedWidth
      (console.lineWidth - tableWidth (columns.map fun _ => 0))) =
        columns.map Column.requestedWidth := by
    refine List.map_congr_left fun column hcolumn => Nat.min_eq_left ?_
    have hmem := List.le_sum_of_mem (List.mem_map_of_mem (f := Column.requestedWidth) hcolumn)
    have hzero : (columns.map fun _ => 0).sum = 0 := by
      rw [List.map_const', List.sum_replicate_nat, Nat.mul_zero]
    rw [tableWidth_eq, List.length_map] at h ⊢
    omega
  have hexcess : tableWidth (columns.map Column.requestedWidth) - console.lineWidth = 0 :=
    Nat.sub_eq_zero_of_le h
  have hpairs (column : Column Styled) (w : Nat) :
      (if column.wraps then w - 0 else w) = w := by
    rw [Nat.sub_zero, ite_self]
  rw [columnWidths]
  simp only [hasked, hexcess, hpairs]
  exact List.map_snd_zip (by rw [List.length_map])

theorem legible_padEnd {t : Text} (h : Legible t) (cells : Nat) : Legible (padEnd cells t) := by
  refine legible_append.2 ⟨h, fun c hc => ?_⟩
  rw [(List.mem_replicate.1 hc).2]
  decide +kernel

theorem width_padEnd {t : Text} (h : Legible t) (hfits : Text.width t ≤ cells) :
    Text.width (padEnd cells t) = cells := by
  rw [padEnd, width_append_spaces h.joiner_notMem]
  omega

/-- The line that a text takes in a cell of a table. -/
def cellLine (wraps : Bool) (cells : Nat) (t : Styled) : Line :=
  inCell cells (t.withText (if wraps then trimExcess cells t.text else t.text))

theorem exists_padded (h : Legible t.text) (wraps : Bool) (hfits : Text.width t.text ≤ cells) :
    ∃ padded : Styled, cellLine wraps cells t = spaced cells padded.runs ∧
      padded.text = padEnd cells t.text ∧ (t.spans = [] → padded.spans = []) := by
  refine ⟨_, rfl, ?_, fun hspans => Styled.spans_withText (Styled.spans_withText hspans _) _⟩
  rw [Styled.text_withText, Styled.text_withText]
  split
  · exact padEnd_trimExcess h cells cells hfits
  · rfl

theorem width_runs_padded {padded : Styled} (h : Legible t.text) (hfits : Text.width t.text ≤ cells)
    (hpadded : padded.text = padEnd cells t.text) : Line.width padded.runs ≤ cells := by
  have hruns := width_runs_le (hpadded ▸ legible_padEnd h cells)
  rwa [hpadded, width_padEnd h hfits] at hruns

theorem width_cellLine (h : Legible t.text) (wraps : Bool) (hfits : Text.width t.text ≤ cells) :
    Line.width (cellLine wraps cells t) = cells + 2 := by
  obtain ⟨padded, hline, htext, -⟩ := exists_padded h wraps hfits
  rw [hline, width_spaced (width_runs_padded h hfits htext)]

/-- A cell shows its text, with spaces behind it. Where the text has styles, its runs may take less
room than the text. -/
theorem exists_cellText (h : Legible t.text) (wraps : Bool) (hfits : Text.width t.text ≤ cells) :
    ∃ k, (cellLine wraps cells t).flatten =
        ' ' :: (padEnd cells t.text ++ List.replicate k ' ' ++ [' ']) ∧
      (t.spans = [] → k = 0) := by
  obtain ⟨padded, hline, htext, hspans⟩ := exists_padded h wraps hfits
  refine ⟨cells - Line.width padded.runs, ?_, fun hplain => ?_⟩
  · rw [hline, flatten_spaced (width_runs_padded h hfits htext), Styled.flatten_runs, htext]
  · rw [Styled.runs_of_plain (hspans hplain), Line.width_singleton, htext, width_padEnd h hfits,
      Nat.sub_self]

theorem cellText_of_plain (h : Legible t.text) (wraps : Bool) (hfits : Text.width t.text ≤ cells)
    (hspans : t.spans = []) :
    (cellLine wraps cells t).flatten = ' ' :: (padEnd cells t.text ++ [' ']) := by
  obtain ⟨k, hk, hzero⟩ := exists_cellText h wraps hfits
  rw [hk, hzero hspans, List.replicate_zero, List.append_nil]

/-- The line of a row whose cells have one line each. -/
def rowLine (stroke : Char) (cells : List Line) : Line :=
  [stroke] :: cells.flatMap fun cell => cell ++ [[stroke]]

theorem row_singletons {α : Type} (stroke : Char) (as : List α) (cells : α → Nat)
    (line : α → Styled) : row stroke (as.map fun a => (cells a, [line a])) =
      [rowLine stroke (as.map fun a => inCell (cells a) (line a))] := by
  have hheight {height : Nat × List Styled → Nat} (h : ∀ a, height (cells a, [line a]) = 1) :
      ((as.map fun a => (cells a, [line a])).map height).foldl max 1 = 1 := by
    rw [List.map_map]
    induction as with
    | nil => rfl
    | cons a as ih => rwa [List.map_cons, List.foldl_cons, Function.comp_apply, h a]
  have hrange : List.range 1 = [0] := rfl
  rw [row, hheight fun _ => rfl, hrange, List.map_singleton, rowLine, List.flatMap_map,
    List.flatMap_map]
  rfl

theorem flatten_rowLine (stroke : Char) (cells : List Line) : (rowLine stroke cells).flatten =
    stroke :: cells.flatMap fun cell => cell.flatten ++ [stroke] := by
  rw [rowLine, List.flatten_cons, List.singleton_append]
  congr 1
  induction cells with
  | nil => rfl
  | cons cell cells ih =>
    rw [List.flatMap_cons, List.flatMap_cons, List.flatten_append, List.flatten_append, ih]
    rfl

theorem width_rowLine {stroke : Char} (hstroke : Text.width [stroke] = 1) (cells : List Line) :
    Line.width (rowLine stroke cells) = (cells.map Line.width).sum + cells.length + 1 := by
  have hcells : Line.width (cells.flatMap fun cell => cell ++ [[stroke]]) =
      (cells.map Line.width).sum + cells.length := by
    induction cells with
    | nil => rfl
    | cons cell cells ih =>
      rw [List.flatMap_cons, Line.width_append, Line.width_append, Line.width_singleton, hstroke,
        ih, List.map_cons, List.sum_cons, List.length_cons]
      omega
  rw [rowLine, ← List.singleton_append, Line.width_append, Line.width_singleton, hstroke, hcells,
    Nat.add_comm]

theorem length_join {ts : List Text} (hne : ts ≠ []) (c : Char) :
    (join [c] ts).length + 1 = (ts.map List.length).sum + ts.length := by
  induction ts with
  | nil => exact absurd rfl hne
  | cons t ts ih =>
    cases ts with
    | nil => rfl
    | cons u ts =>
      have hrest := ih (List.cons_ne_nil u ts)
      rw [join, List.length_append, List.length_append, List.length_singleton, List.map_cons,
        List.sum_cons, List.length_cons]
      omega

theorem width_rule {left stroke crossing right : Char}
    (h : Narrow [left, stroke, crossing, right]) {widths : List Nat} (hne : widths ≠ []) :
    Text.width (rule left stroke crossing right widths) = tableWidth widths := by
  obtain ⟨hleft, hmiddle⟩ := List.forall_mem_cons.1 h
  obtain ⟨hstroke, hends⟩ := List.forall_mem_cons.1 hmiddle
  obtain ⟨hcrossing, hright⟩ := List.forall_mem_cons.1 hends
  have hnarrow : Narrow (rule left stroke crossing right widths) := by
    intro c hc
    rcases List.mem_append.1 hc with hc | hc
    · rcases List.mem_append.1 hc with hc | hc
      · exact List.mem_singleton.1 hc ▸ hleft
      · rcases mem_join hc with hc | ⟨t, ht, hc⟩
        · exact List.mem_singleton.1 hc ▸ hcrossing
        · obtain ⟨w, -, rfl⟩ := List.mem_map.1 ht
          exact (List.mem_replicate.1 hc).2 ▸ hstroke
    · exact hright c hc
  have hlength : (join [crossing] (widths.map fun w => List.replicate (w + 2) stroke)).length + 1 =
      widths.sum + 3 * widths.length := by
    have hlengths : (widths.map fun w => List.replicate (w + 2) stroke).map List.length =
        widths.map (· + 2) := by
      rw [List.map_map]
      exact List.map_congr_left fun w _ => List.length_replicate
    rw [length_join (mt List.map_eq_nil_iff.1 hne), hlengths, sum_map_add_two, List.length_map]
    omega
  rw [hnarrow.width_eq, rule, tableWidth_eq, List.length_append, List.length_append,
    List.length_singleton, List.length_singleton]
  omega

/-- Columns of the same height whose legible texts have room on the console. -/
structure Roomy (console : Console) (columns : List (Column Styled)) (height : Nat) : Prop where
  legible : ∀ column ∈ columns, ∀ t ∈ column.head :: column.cells, Legible t.text
  height : ∀ column ∈ columns, column.cells.length = height
  ne_nil : columns ≠ []
  fits : tableWidth (columns.map Column.requestedWidth) ≤ console.lineWidth

def shownRow (stroke : Char) (columns : List (Column Styled)) (pick : Column Styled → Styled) :
    Line :=
  rowLine stroke (columns.map fun column =>
    cellLine column.wraps column.requestedWidth (pick column))

/-- The lines of a table that has room, with a title without styles. -/
def tableLines (title : Text) (columns : List (Column Styled)) (height : Nat) : List Line :=
  let widths := columns.map Column.requestedWidth
  [(centred ' ' (tableWidth widths) ⟨title, []⟩).runs] ++ [[rule '┏' '━' '┳' '┓' widths]] ++
    [shownRow '┃' columns Column.head] ++ [[rule '┡' '━' '╇' '┩' widths]] ++
    (List.range height).map (fun i => shownRow '│' columns fun column =>
      column.cells[i]?.getD ⟨[], []⟩) ++
    [[rule '└' '─' '┴' '┘' widths], []]

theorem width_le_requestedWidth {column : Column Styled} (ht : t ∈ column.head :: column.cells)
    (h : Legible t.text) : Text.width t.text ≤ column.requestedWidth := by
  rw [← requestedWidth_of_legible h]
  exact le_greatest (List.mem_map_of_mem ht)

theorem requestedWidth_le {column : Column Styled}
    (h : ∀ t ∈ column.head :: column.cells, Legible t.text ∧ Text.width t.text ≤ n) :
    column.requestedWidth ≤ n := by
  refine greatest_le_iff.2 fun m hm => ?_
  obtain ⟨t, ht, rfl⟩ := List.mem_map.1 hm
  obtain ⟨hlegible, hwidth⟩ := h t ht
  rwa [requestedWidth_of_legible hlegible]

theorem Roomy.width_shownRow {height : Nat} (h : Roomy console columns height) {stroke : Char}
    (hstroke : Text.width [stroke] = 1) {pick : Column Styled → Styled}
    (hpick : ∀ column ∈ columns, pick column ∈ column.head :: column.cells) :
    Line.width (shownRow stroke columns pick) ≤ console.lineWidth := by
  refine Nat.le_trans (Nat.le_of_eq ?_) h.fits
  have hcells : (columns.map fun column =>
      cellLine column.wraps column.requestedWidth (pick column)).map Line.width =
        (columns.map Column.requestedWidth).map (· + 2) := by
    rw [List.map_map, List.map_map]
    refine List.map_congr_left fun column hcolumn => ?_
    have hlegible := h.legible column hcolumn _ (hpick column hcolumn)
    exact width_cellLine hlegible column.wraps
      (width_le_requestedWidth (hpick column hcolumn) hlegible)
  rw [shownRow, width_rowLine hstroke, hcells, sum_map_add_two, tableWidth_eq, List.length_map,
    List.length_map]
  omega

theorem row_of_fits (stroke : Char) {pick : Column Styled → Styled}
    {laid : Column Styled → List Styled}
    (hlaid : ∀ column ∈ columns, laid column =
      flow ⟨column.wraps, .ellipsis⟩ column.requestedWidth (pick column))
    (hpick : ∀ column ∈ columns, Legible (pick column).text ∧
      Text.width (pick column).text ≤ column.requestedWidth) :
    row stroke ((columns.map Column.requestedWidth).zip (columns.map laid)) =
      [shownRow stroke columns pick] := by
  have hcells : (columns.map Column.requestedWidth).zip (columns.map laid) =
      columns.map fun column => (column.requestedWidth, [(pick column).withText
        (if column.wraps then trimExcess column.requestedWidth (pick column).text
          else (pick column).text)]) := by
    rw [List.zip_map']
    refine List.map_congr_left fun column hcolumn => ?_
    obtain ⟨hlegible, hfits⟩ := hpick column hcolumn
    rw [hlaid column hcolumn, flow_of_fits _ hlegible hfits]
  rw [hcells, row_singletons]
  rfl

theorem greatest_of_forall {ns : List Nat} (hne : ns ≠ []) (h : ∀ m ∈ ns, m = n) :
    greatest ns = n := by
  obtain ⟨m, hm⟩ := List.exists_mem_of_ne_nil ns hne
  refine Nat.le_antisymm (greatest_le_iff.2 fun m hm => (h m hm).le) ?_
  exact h m hm ▸ le_greatest hm

theorem width_spaces_append (n : Nat) (t : Text) :
    Text.width (List.replicate n ' ' ++ t) = n + Text.width t := by
  induction n with
  | zero => exact (Nat.zero_add _).symm
  | succ n ih =>
    rw [List.replicate_succ, List.cons_append, Text.width, widthAfter_cons_space, ih]
    omega

theorem width_centred {title : Text} (h : Legible title) (hfits : Text.width title ≤ cells) :
    Text.width (centred ' ' cells ⟨title, []⟩).text = cells := by
  simp only [centred, Styled.between]
  rw [List.append_assoc, width_spaces_append, width_append_spaces h.joiner_notMem]
  omega

/-- A text of printable characters of ASCII without an opening bracket and with fewer colons than
the code of an emoji has, which has room in some cells. -/
structure IsLabel (cells : Nat) (t : Text) : Prop where
  basic : Basic t
  bracket : '[' ∉ t
  colons : t.count ':' < 2
  fits : t.length ≤ cells

instance (cells : Nat) (t : Text) : Decidable (IsLabel cells t) :=
  decidable_of_iff (Basic t ∧ '[' ∉ t ∧ t.count ':' < 2 ∧ t.length ≤ cells)
    ⟨fun ⟨basic, bracket, colons, fits⟩ => ⟨basic, bracket, colons, fits⟩,
      fun h => ⟨h.basic, h.bracket, h.colons, h.fits⟩⟩

namespace IsLabel

variable {t : Text} (h : IsLabel cells t)

include h

theorem legible : Legible t :=
  h.basic.legible

theorem inert : Markup.Inert t :=
  Markup.inert_of_notMem h.bracket

theorem width_le : Text.width t ≤ cells :=
  h.basic.width_eq.trans_le h.fits

theorem verbatim (console : Console) : Markup.Verbatim console t :=
  ⟨h.inert, h.legible, .of_count h.colons⟩

end IsLabel

/-- A title that prints as it is. -/
structure IsTitle (title : Text) : Prop where
  ne_nil : title ≠ []
  legible : Legible title
  inert : Markup.Inert title
  colons : title.count ':' < 2
  last : ∀ c ∈ title.getLast?, isBlank c = false

theorem IsLabel.isTitle {title : Text} (h : IsLabel cells title) (hne : title ≠ [])
    (hlast : title.getLast? ≠ some ' ') : IsTitle title :=
  ⟨hne, h.legible, h.inert, h.colons, h.legible.isBlank_getLast?_iff.2 hlast⟩

theorem IsTitle.verbatim {title : Text} (h : IsTitle title) (console : Console) :
    Markup.Verbatim console title :=
  ⟨h.inert, h.legible, .of_count h.colons⟩

theorem titleLines_of_fits {title : Text} (h : IsTitle title) (hfits : Text.width title ≤ cells) :
    titleLines console cells title = .ok [centred ' ' cells ⟨title, []⟩] := by
  have hself : Styled.withText ⟨title, []⟩ title = ⟨title, []⟩ := Styled.withText_self ⟨title, []⟩
  have hflow : flow ⟨true, .fold⟩ cells ⟨title, []⟩ = [⟨title, []⟩] := by
    rw [flow_of_fits ⟨true, .fold⟩ h.legible hfits, if_pos rfl,
      trimExcess_eq_self_iff.2 (.inr h.last), hself]
  rw [titleLines, if_neg h.ne_nil, (h.verbatim console).render_eq]
  simp only [bind, Except.bind, hflow, List.map_singleton, trimEnd_eq_self h.last, hself]
  rfl

theorem table_eq {title : Text} {source : List (Column Text)} {height : Nat}
    (hrender : source.mapM (Column.render console) = .ok columns) (h : Roomy console columns height)
    (htitle : IsTitle title)
    (hfits : Text.width title ≤ tableWidth (columns.map Column.requestedWidth)) :
    table console title source = .ok (ended console (tableLines title columns height)) := by
  have hlaid (lay : Nat × Column Styled → Column (List Styled)) :
      ((columns.map Column.requestedWidth).zip columns).map lay =
        columns.map fun column => lay (column.requestedWidth, column) := by
    have hzip : (columns.map Column.requestedWidth).zip (columns.map id) =
        columns.map fun column => (column.requestedWidth, column) := List.zip_map'
    rw [List.map_id] at hzip
    rw [hzip, List.map_map]
    rfl
  have hheight : greatest ((columns.map fun column => column.lay column.requestedWidth).map
      fun column => column.cells.length) = height := by
    refine greatest_of_forall (by simp [h.ne_nil]) fun m hm => ?_
    rw [List.map_map] at hm
    obtain ⟨column, hcolumn, rfl⟩ := List.mem_map.1 hm
    rw [← h.height column hcolumn]
    exact List.length_map _
  have hroom {column : Column Styled} (hcolumn : column ∈ columns) {t : Styled}
      (ht : t ∈ column.head :: column.cells) :
      Legible t.text ∧ Text.width t.text ≤ column.requestedWidth :=
    ⟨h.legible column hcolumn t ht,
      width_le_requestedWidth ht (h.legible column hcolumn t ht)⟩
  have hhead : row '┃' ((columns.map Column.requestedWidth).zip
      ((columns.map fun column => column.lay column.requestedWidth).map Column.head)) =
        [shownRow '┃' columns Column.head] := by
    rw [List.map_map]
    exact row_of_fits '┃' (fun _ _ => rfl) fun column hcolumn =>
      hroom hcolumn List.mem_cons_self
  have hbody (i : Nat) (hi : i ∈ List.range height) :
      row '│' ((columns.map Column.requestedWidth).zip
        ((columns.map fun column => column.lay column.requestedWidth).map
          fun column => column.cells[i]?.getD [])) =
        [shownRow '│' columns fun column => column.cells[i]?.getD ⟨[], []⟩] := by
    have hget {column : Column Styled} (hcolumn : column ∈ columns) :
        ∃ t ∈ column.cells, column.cells[i]? = some t := by
      have hlt : i < column.cells.length := h.height column hcolumn ▸ List.mem_range.1 hi
      exact ⟨_, List.getElem_mem hlt, List.getElem?_eq_getElem hlt⟩
    rw [List.map_map]
    apply row_of_fits
    · intro column hcolumn
      obtain ⟨t, -, ht⟩ := hget hcolumn
      have hlay : (column.lay column.requestedWidth).cells[i]? =
          some (flow ⟨column.wraps, .ellipsis⟩ column.requestedWidth t) := by
        rw [Column.lay, List.getElem?_map, ht]
        rfl
      rw [Function.comp_apply, hlay, ht]
      rfl
    · intro column hcolumn
      obtain ⟨t, hmem, ht⟩ := hget hcolumn
      rw [ht]
      exact hroom hcolumn (List.mem_cons_of_mem _ hmem)
  rw [table, hrender]
  simp only [bind, Except.bind]
  rw [columnWidths_of_fits h.fits, titleLines_of_fits htitle hfits]
  simp only [hlaid, hheight]
  rw [hhead, List.flatMap_congr hbody, ← List.map_eq_flatMap]
  rfl

theorem Roomy.width_le {title : Text} {height : Nat} (h : Roomy console columns height)
    (htitle : IsTitle title)
    (hfits : Text.width title ≤ tableWidth (columns.map Column.requestedWidth)) :
    ∀ line ∈ tableLines title columns height, Line.width line ≤ console.lineWidth := by
  have hrule {left stroke crossing right : Char}
      (hnarrow : Narrow [left, stroke, crossing, right]) :
      Line.width [rule left stroke crossing right (columns.map Column.requestedWidth)] ≤
        console.lineWidth := by
    rw [Line.width_singleton, width_rule hnarrow (mt List.map_eq_nil_iff.1 h.ne_nil)]
    exact h.fits
  have hbody (i : Nat) (hi : i ∈ List.range height) :
      Line.width (shownRow '│' columns fun column => column.cells[i]?.getD ⟨[], []⟩) ≤
        console.lineWidth := by
    refine h.width_shownRow (by decide +kernel) fun column hcolumn => ?_
    have hlt : i < column.cells.length := h.height column hcolumn ▸ List.mem_range.1 hi
    rw [List.getElem?_eq_getElem hlt]
    exact List.mem_cons_of_mem _ (List.getElem_mem hlt)
  intro line hline
  simp only [tableLines, List.mem_append, List.mem_cons, List.not_mem_nil,
    or_false, List.mem_map] at hline
  rcases hline with ((((rfl | rfl) | rfl) | rfl) | ⟨i, hi, rfl⟩) | rfl | rfl
  · rw [Styled.runs_of_plain rfl, Line.width_singleton, width_centred htitle.legible hfits]
    exact h.fits
  · exact hrule (by decide +kernel)
  · exact h.width_shownRow (by decide +kernel) fun _ _ => List.mem_cons_self
  · exact hrule (by decide +kernel)
  · exact hbody i hi
  · exact hrule (by decide +kernel)
  · exact Nat.zero_le _

/-- A table that has room is printed in full. -/
theorem table_of_fits {title : Text} {source : List (Column Text)} {height : Nat}
    (hrender : source.mapM (Column.render console) = .ok columns) (h : Roomy console columns height)
    (htitle : IsTitle title)
    (hfits : Text.width title ≤ tableWidth (columns.map Column.requestedWidth)) :
    table console title source = .ok
      ((tableLines title columns height).map fun line => line.flatten ++ ['\n']).flatten := by
  rw [table_eq hrender h htitle hfits, ended_of_fits (h.width_le htitle hfits)]

theorem shownRow_mem_tableLines (title : Text) (columns : List (Column Styled)) {i height : Nat}
    (hi : i < height) : shownRow '│' columns (fun column => column.cells[i]?.getD ⟨[], []⟩) ∈
      tableLines title columns height := by
  refine List.mem_append_left _ (List.mem_append_right _ ?_)
  exact List.mem_map_of_mem (List.mem_range.2 hi)

theorem exists_line {line : Line} {ls : List Line} (h : line ∈ ls) : ∃ before after,
    (ls.map fun line => line.flatten ++ ['\n']).flatten =
      before ++ line.flatten ++ '\n' :: after := by
  obtain ⟨first, last, rfl⟩ := List.append_of_mem h
  refine ⟨(first.map fun line => line.flatten ++ ['\n']).flatten,
    (last.map fun line => line.flatten ++ ['\n']).flatten, ?_⟩
  simp

theorem render_column_eq_ok {source : Column Text} {column : Column Styled} :
    source.render console = .ok column ↔ ∃ head cells,
      Markup.render console source.head = .ok head ∧
      source.cells.mapM (Markup.render console) = .ok cells ∧
      column = ⟨head, source.wraps, cells⟩ := by
  rw [Column.render, Outcome.bind_eq_ok]
  constructor
  · rintro ⟨head, hhead, h⟩
    obtain ⟨cells, hcells, h⟩ := Outcome.bind_eq_ok.1 h
    exact ⟨head, cells, hhead, hcells, (Except.ok.inj h).symm⟩
  · rintro ⟨head, cells, hhead, hcells, rfl⟩
    exact ⟨head, hhead, Outcome.bind_eq_ok.2 ⟨cells, hcells, rfl⟩⟩

theorem titleLines_succeeds {title : Text} (h : ∃ s, Markup.render console title = .ok s)
    (cells : Nat) : ∃ titles, titleLines console cells title = .ok titles := by
  obtain ⟨s, hs⟩ := h
  rw [titleLines]
  split
  · exact ⟨_, rfl⟩
  · rw [hs]
    exact ⟨_, rfl⟩

theorem table_succeeds {title : Text} {source : List (Column Text)}
    (htitle : ∃ s, Markup.render console title = .ok s)
    (hrender : source.mapM (Column.render console) = .ok columns) :
    ∃ printed, table console title source = .ok printed := by
  obtain ⟨titles, htitles⟩ := titleLines_succeeds htitle (tableWidth (columnWidths console columns))
  rw [table, hrender]
  simp only [bind, Except.bind, htitles]
  exact ⟨_, rfl⟩

theorem mapM_render_verbatim {ts : List Text} (h : ∀ t ∈ ts, Markup.Verbatim console t) :
    ts.mapM (Markup.render console) = .ok (ts.map fun t => ⟨t, []⟩) := by
  induction ts with
  | nil => rfl
  | cons t ts ih =>
    obtain ⟨ht, hts⟩ := List.forall_mem_cons.1 h
    rw [List.mapM_cons, ht.render_eq, ih hts]
    rfl

def listRow (cells : Nat) (t : Text) : Text :=
  "│ " ++ padEnd cells t ++ " │\n"

theorem map_range_getElem? {α β : Type} (as : List α) (default : α) (f : α → β) :
    (List.range as.length).map (fun i => f (as[i]?.getD default)) = as.map f := by
  apply List.ext_getElem
  · rw [List.length_map, List.length_map, List.length_range]
  · intro i hi hi'
    rw [List.length_map] at hi'
    rw [List.getElem_map, List.getElem_map, List.getElem_range, List.getElem?_eq_getElem hi',
      Option.getD_some]

/-- The column that a list of texts prints as. -/
def plainColumn (head : Text) (texts : List Text) : Column Styled :=
  ⟨⟨head, []⟩, false, texts.map fun t => ⟨t, []⟩⟩

section List

variable {head : Text} {texts : List Text} {room : Nat}
  (h : ∀ t ∈ head :: texts, Markup.Verbatim console t ∧ Text.width t ≤ room)

include h

theorem render_plainColumn :
    (⟨head, false, texts⟩ : Column Text).render console = .ok (plainColumn head texts) := by
  obtain ⟨hhead, htexts⟩ := List.forall_mem_cons.1 h
  exact render_column_eq_ok.2 ⟨_, _, hhead.1.render_eq,
    mapM_render_verbatim fun t ht => (htexts t ht).1, rfl⟩

theorem fits_plainColumn : ∀ t ∈ (plainColumn head texts).head :: (plainColumn head texts).cells,
    Legible t.text ∧ Text.width t.text ≤ room := by
  obtain ⟨hhead, htexts⟩ := List.forall_mem_cons.1 h
  exact List.forall_mem_cons.2 ⟨⟨hhead.1.legible, hhead.2⟩,
    List.forall_mem_map.2 fun t ht => ⟨(htexts t ht).1.legible, (htexts t ht).2⟩⟩

theorem width_le_plainColumn {t : Text} (ht : t ∈ head :: texts) :
    Text.width t ≤ (plainColumn head texts).requestedWidth := by
  have hmem : (⟨t, []⟩ : Styled) ∈
      (plainColumn head texts).head :: (plainColumn head texts).cells := by
    rcases List.mem_cons.1 ht with rfl | ht
    · exact List.mem_cons_self
    · exact List.mem_cons_of_mem _ (List.mem_map_of_mem ht)
  exact width_le_requestedWidth hmem (fits_plainColumn h _ hmem).1

omit h in
theorem tableWidth_plainColumn (head : Text) (texts : List Text) :
    tableWidth ([plainColumn head texts].map Column.requestedWidth) =
      (plainColumn head texts).requestedWidth + 4 := by
  rw [tableWidth_eq]
  rfl

theorem roomy_plainColumn (hroom : room + 4 ≤ console.lineWidth) :
    Roomy console [plainColumn head texts] texts.length := by
  have hcells := fits_plainColumn h
  constructor
  · exact List.forall_mem_singleton.2 fun t ht => (hcells t ht).1
  · exact List.forall_mem_singleton.2 (List.length_map _)
  · exact List.cons_ne_nil _ _
  · rw [tableWidth_plainColumn]
    exact (Nat.add_le_add_right (requestedWidth_le hcells) 4).trans hroom

theorem rows_plainColumn :
    ((List.range texts.length).map fun i => (shownRow '│' [plainColumn head texts] fun column =>
        column.cells[i]?.getD ⟨[], []⟩).flatten ++ ['\n']) =
      texts.map (listRow (plainColumn head texts).requestedWidth) := by
  have hrow (t : Text) (ht : t ∈ texts) :
      (rowLine '│' [cellLine false (plainColumn head texts).requestedWidth ⟨t, []⟩]).flatten ++
        ['\n'] = listRow (plainColumn head texts).requestedWidth t := by
    have hmem : t ∈ head :: texts := List.mem_cons_of_mem _ ht
    rw [listRow, flatten_rowLine, List.flatMap_singleton, cellText_of_plain (t := ⟨t, []⟩)
      (h t hmem).1.legible false (width_le_plainColumn h hmem) rfl]
    simp
  have hlength : (plainColumn head texts).cells.length = texts.length := List.length_map _
  have hget := map_range_getElem? (plainColumn head texts).cells ⟨[], []⟩ fun t =>
    (rowLine '│' [cellLine false (plainColumn head texts).requestedWidth t]).flatten ++ ['\n']
  rw [hlength] at hget
  exact hget.trans (List.map_map.trans (List.map_congr_left hrow))

theorem exists_list {title : Text} (htitle : IsTitle title) (hroom : room + 4 ≤ console.lineWidth)
    (hfits : ∃ t ∈ head :: texts, Text.width title ≤ Text.width t + 4) :
    ∃ before cells, table console title [⟨head, false, texts⟩] =
      .ok (before ++ texts.flatMap (listRow cells) ++ rule '└' '─' '┴' '┘' [cells] ++ "\n\n") := by
  have hrender : [(⟨head, false, texts⟩ : Column Text)].mapM (Column.render console) =
      .ok [plainColumn head texts] := by
    rw [List.mapM_cons, render_plainColumn h]
    rfl
  have htable : Text.width title ≤
      tableWidth ([plainColumn head texts].map Column.requestedWidth) := by
    obtain ⟨t, ht, hle⟩ := hfits
    rw [tableWidth_plainColumn]
    exact hle.trans (Nat.add_le_add_right (width_le_plainColumn h ht) 4)
  have hfoot : ([[rule '└' '─' '┴' '┘' ([plainColumn head texts].map Column.requestedWidth)],
      []].map fun line => List.flatten line ++ ['\n']).flatten =
        rule '└' '─' '┴' '┘' [(plainColumn head texts).requestedWidth] ++ "\n\n" := by
    simp
  rw [table_of_fits hrender (roomy_plainColumn h hroom) htitle htable, tableLines,
    List.map_append, List.map_append, List.flatten_append, List.flatten_append, hfoot,
    List.map_map, Function.comp_def, rows_plainColumn h, ← List.flatMap_def, ← List.append_assoc]
  exact ⟨_, (plainColumn head texts).requestedWidth, rfl⟩

end List

end Scaffold.Console
