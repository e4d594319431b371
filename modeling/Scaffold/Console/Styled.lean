import Scaffold.Text.Wrap

/-!
Texts in which some parts have a style. A plain console shows no style, but it measures each run of
characters between the edges of such parts on its own. The runs of a text make up the text
(`flatten_runs`).
-/

namespace Scaffold.Console

open Text (Overflow)

/-- A part of a text, from one position up to another. -/
structure Span where
  start : Nat
  stop : Nat

/-- A part that stands further on in a longer text. -/
def Span.shift (n : Nat) (s : Span) : Span :=
  ⟨s.start + n, s.stop + n⟩

/-- A text with those of its parts that have a style. -/
structure Styled where
  text : Text
  spans : List Span

/-- Control characters that a console does not print: bell, backspace, vertical tab, form feed and
carriage return. -/
def isUnprinted (c : Char) : Bool :=
  c.toNat ∈ [7, 8, 11, 12, 13]

def printed (t : Text) : Text :=
  t.filter fun c => !isUnprinted c

namespace Styled

/-- A text without styles, as it is printed. -/
def ofText (t : Text) : Styled :=
  ⟨printed t, []⟩

/-- Two texts, one after the other. -/
def append (t u : Styled) : Styled :=
  ⟨t.text ++ u.text, t.spans ++ u.spans.map (Span.shift t.text.length)⟩

/-- A text between two others, which have no styles. -/
def between (before after : Text) (t : Styled) : Styled :=
  ⟨before ++ t.text ++ after, t.spans.map (Span.shift before.length)⟩

/-- A text with other characters. Where they are fewer, the spans end with the text. -/
def withText (t : Styled) (other : Text) : Styled :=
  if other.length < t.text.length then
    let begun := t.spans.filter fun s => s.start < other.length
    ⟨other, begun.map fun s => ⟨s.start, min s.stop other.length⟩⟩
  else ⟨other, t.spans⟩

/-- The characters from `start` up to `stop`, and what of the spans lies among them. -/
def slice (start stop : Nat) (t : Styled) : Styled :=
  let inside := t.spans.map fun s => Span.mk (s.start - start) (min s.stop stop - start)
  ⟨(t.text.drop start).take (stop - start), inside.filter fun s => s.start < s.stop⟩

/--
Cuts a text into given pieces, which stand in it one after the other with `gap` characters between
them. A text in one piece keeps its spans, even those without a character.
-/
def divide (gap : Nat) (t : Styled) (pieces : List Text) : List Styled :=
  match pieces with
  | [_] => [t]
  | _ => go 0 pieces
where
  /-- Goes on with the pieces after a position. -/
  go (start : Nat) : List Text → List Styled
    | [] => []
    | piece :: rest =>
      t.slice start (start + piece.length) :: go (start + piece.length + gap) rest

/--
A line with each tab replaced by one space and those up to a column divisible by eight. A span that
ends with the tab ends with the last of the spaces.
-/
def expandTabs (line : Styled) : Styled :=
  match Text.cut (· = '\t') line.text with
  | [_] => line
  | pieces => go 0 0 pieces
where
  /-- Goes on at a position, in a column, with the pieces between tabs. -/
  go (start column : Nat) : List Text → Styled
    | [] => ⟨[], []⟩
    | [piece] => line.slice start (start + piece.length)
    | piece :: rest =>
      let length := piece.length + 1
      let reached := column + Text.width (piece ++ [' '])
      let next := (reached + 7) / 8 * 8
      let spans := (line.slice start (start + length)).spans.map fun s =>
        if s.stop = length then ⟨s.start, s.stop + (next - reached)⟩ else s
      append ⟨piece ++ [' '] ++ List.replicate (next - reached) ' ', spans⟩
        (go (start + length) next rest)

/-- A text as it is printed, line by line. -/
def lines (t : Styled) : List Styled :=
  (t.divide 1 (Text.cut (· = '\n') t.text)).map expandTabs

/-- The lines that a line is broken into. -/
def wrap (overflow : Overflow) (cells : Nat) (line : Styled) : List Styled :=
  (line.divide 0 (Text.wrap overflow cells line.text)).map fun broken =>
    broken.withText (Text.trimExcess cells broken.text)

/-- Whether a span starts or stops at a position. -/
def hasEdge (t : Styled) (position : Nat) : Bool :=
  t.spans.any fun s => s.start = position || s.stop = position

/-- The runs of a text between the edges of its spans. -/
def runs (t : Styled) : List Text :=
  go 0 [] t.text
where
  /-- Goes on at a position after `run`, the beginning of a run. -/
  go (position : Nat) (run : Text) : Text → List Text
    | [] => [run]
    | c :: rest =>
      if run ≠ [] ∧ t.hasEdge position then run :: go (position + 1) [c] rest
      else go (position + 1) (run ++ [c]) rest

theorem flatten_runs_go (t : Styled) (position : Nat) (run rest : Text) :
    (runs.go t position run rest).flatten = run ++ rest := by
  induction rest generalizing position run with
  | nil => simp [runs.go]
  | cons c rest ih =>
    unfold runs.go
    split <;> simp [ih]

theorem flatten_runs (t : Styled) : t.runs.flatten = t.text :=
  flatten_runs_go t 0 [] t.text

end Styled

/-- A line in runs, each of which is measured on its own. -/
abbrev Line := List Text

namespace Line

def width (line : Line) : Nat :=
  line.foldl (fun total run => total + Text.width run) 0

/-- A line cut to a width that it reaches, in the middle of a run if need be. -/
def crop (cells : Nat) : Line → Line
  | [] => []
  | run :: rest =>
    if Text.width run < cells then run :: crop (cells - Text.width run) rest
    else if Text.width run = cells then [run]
    else [Text.fit cells run]

/-- A line cut to a width if it is wider. -/
def limit (cells : Nat) (line : Line) : Line :=
  if cells < width line then crop cells line else line

/-- A line of a given width: cut, or filled up with spaces. -/
def fill (cells : Nat) (line : Line) : Line :=
  if width line < cells then line ++ [List.replicate (cells - width line) ' ']
  else limit cells line

end Line

end Scaffold.Console
