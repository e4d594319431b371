import Scaffold.Console.Markup

/-!
Lines, tables and panels on a plain console. A column or a panel is as wide as its widest line was
before tabs were expanded, if the console has room for it; what does not fit is wrapped or cut.
-/

namespace Scaffold.Console

open Text (Overflow)

/-- Several lines as the console prints them, each one ended. -/
def ended (console : Console) (ls : List Line) : Text :=
  (ls.map fun line => (Line.limit console.lineWidth line).flatten ++ ['\n']).flatten

/-- The greatest of several numbers. -/
def greatest (ns : List Nat) : Nat :=
  ns.foldl max 0

/-- The width that a text asks for: that of its widest line, in which a tab takes no room. -/
def requestedWidth (t : Text) : Nat :=
  greatest ((Text.cut Text.isLineBreak t).map Text.width)

/-- How a text is laid out where it is wider than its place. -/
structure Flow where
  /-- Whether lines are broken. -/
  wraps : Bool
  overflow : Overflow

/-- The lines of a text that is laid out in a place of some width. -/
def flow (f : Flow) (cells : Nat) (t : Styled) : List Styled :=
  let broken := t.lines.flatMap fun line => if f.wraps then line.wrap f.overflow cells else [line]
  broken.map fun line => line.withText (Text.shorten f.overflow cells line.text)

/-- A line in the middle of a width; what is left over goes to the right. -/
def centred (filler : Char) (cells : Nat) (line : Styled) : Styled :=
  let free := cells - line.text.width
  line.between (List.replicate (free / 2) filler) (List.replicate (free - free / 2) filler)

/-- A column of a table. -/
structure Column (α : Type) where
  head : α
  /-- Whether lines are broken that are wider than the column. -/
  wraps : Bool
  cells : List α

namespace Column

/-- A column of markup as it is printed. -/
def render (console : Console) (column : Column Text) : Except Markup.Error (Column Styled) := do
  return ⟨← Markup.render console column.head, column.wraps,
    ← column.cells.mapM (Markup.render console)⟩

/-- The width that a column asks for: that of its widest text. -/
def requestedWidth (column : Column Styled) : Nat :=
  greatest ((column.head :: column.cells).map fun t => Console.requestedWidth t.text)

/-- A column laid out in lines. -/
def lay (cells : Nat) (column : Column Styled) : Column (List Styled) :=
  let flowed := flow ⟨column.wraps, .ellipsis⟩ cells
  ⟨flowed column.head, column.wraps, column.cells.map flowed⟩

end Column

/-- The number of cells that a table fills whose columns have some widths. -/
def tableWidth (widths : List Nat) : Nat :=
  widths.foldl (fun total w => total + w + 3) 1

/--
The widths of the columns of a table: what they ask for. Where the console is too narrow for it, the
columns that wrap get less.
-/
def columnWidths (console : Console) (columns : List (Column Styled)) : List Nat :=
  let room := console.lineWidth - tableWidth (columns.map fun _ => 0)
  let asked := columns.map fun column => min column.requestedWidth room
  let excess := tableWidth asked - console.lineWidth
  (columns.zip asked).map fun (column, w) => if column.wraps then w - excess else w

/-- A horizontal rule of a table. -/
def rule (left stroke crossing right : Char) (widths : List Nat) : Text :=
  [left] ++ Text.join [crossing] (widths.map fun w => List.replicate (w + 2) stroke) ++ [right]

/-- A line in a place of some width, with a space at either side. -/
def spaced (cells : Nat) (line : Line) : Line :=
  Line.fill (cells + 2) ([[' ']] ++ Line.fill cells line ++ [[' ']])

/-- A line in a cell of a table. -/
def inCell (cells : Nat) (line : Styled) : Line :=
  spaced cells (line.withText (Text.padEnd cells line.text)).runs

/-- A row of cells of several lines each, between vertical strokes. -/
def row (stroke : Char) (cells : List (Nat × List Styled)) : List Line :=
  let height := (cells.map fun (_, ls) => ls.length).foldl max 1
  (List.range height).map fun i =>
    [stroke] :: cells.flatMap fun (w, ls) => inCell w (ls[i]?.getD ⟨[], []⟩) ++ [[stroke]]

/-- The title above a table, broken where it is wider than the table. -/
def titleLines (console : Console) (cells : Nat) (title : Text) :
    Except Markup.Error (List Styled) := do
  if title = [] then return []
  else
    return (flow ⟨true, .fold⟩ cells (← Markup.render console title)).map fun line =>
      centred ' ' cells (line.withText (Text.trimEnd Text.isBlank line.text))

/-- A table with a title and an empty line after it. Each column has the same number of cells. -/
def table (console : Console) (title : Text) (columns : List (Column Text)) :
    Except Markup.Error Text := do
  let columns ← columns.mapM (Column.render console)
  let widths := columnWidths console columns
  let titles ← titleLines console (tableWidth widths) title
  let laid := (widths.zip columns).map fun (w, column) => column.lay w
  let height := greatest (laid.map fun column => column.cells.length)
  let body := (List.range height).flatMap fun i =>
    row '│' (widths.zip (laid.map fun column => column.cells[i]?.getD []))
  return ended console (titles.map Styled.runs ++ [[rule '┏' '━' '┳' '┓' widths]] ++
    row '┃' (widths.zip (laid.map Column.head)) ++ [[rule '┡' '━' '╇' '┩' widths]] ++
    body ++ [[rule '└' '─' '┴' '┘' widths], []])

/-- The title in the upper edge of a panel, which is markup. -/
def panelTitle (console : Console) (title : Text) : Except Markup.Error (Option Styled) := do
  if title = [] then return none
  else
    let t ← Markup.render console title
    let line := t.withText (t.text.map fun c => if c = '\n' then ' ' else c)
    return some (line.expandTabs.between [' '] [' '])

/-- A text in a frame with a title. A frame without room for a character stays empty. -/
def panel (console : Console) (title text : Text) : Except Markup.Error Text := do
  let title ← panelTitle console title
  let text := Styled.ofText (Text.trimEnd (· = '\n') text)
  let asked := max (requestedWidth text.text + 2) ((title.map fun t => t.text.width + 2).getD 0)
  let inner := min asked (console.lineWidth - 2)
  let body := if inner = 2 then [] else flow ⟨true, .fold⟩ (inner - 2) text
  let top := match title with
    | some t =>
      let shown := t.withText (Text.shorten .fold (inner - 2) t.text)
      [['─']] ++ (centred '─' (inner - 2) shown).runs ++ [['─']]
    | none => [List.replicate inner '─']
  return ended console ([[['╭']] ++ top ++ [['╮']]] ++
    body.map (fun line => [['│']] ++ spaced (inner - 2) line.runs ++ [['│']]) ++
    [[['╰'] ++ List.replicate inner '─' ++ ['╯']]])

end Scaffold.Console
