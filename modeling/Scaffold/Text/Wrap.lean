import Scaffold.Text.Blank
import Scaffold.Text.Cluster

/-!
Lines that are too wide: breaking them before words, and cutting off what still does not fit.
-/

namespace Scaffold.Text

/-- What becomes of a word that is wider than a line. -/
inductive Overflow where
  /-- It is broken into pieces. -/
  | fold
  /-- Its line is cut and ends in an ellipsis. -/
  | ellipsis
  deriving DecidableEq

/-- The words of a line, each with the blanks after it; blanks at the front go with the first. -/
def wordsWithBlanks (t : Text) : List Text :=
  go [] t
where
  /-- Goes on with `word`, the beginning of a word. -/
  go (word : Text) : Text → List Text
    | [] => if blank word then [] else [word]
    | [c] => if blank (word ++ [c]) then [] else [word ++ [c]]
    | c :: d :: rest =>
      if isBlank c && !isBlank d && !blank word then (word ++ [c]) :: go [] (d :: rest)
      else go (word ++ [c]) (d :: rest)

/-- Puts clusters on pieces, of which the last one is `piece` so far and has `used` cells. -/
def chop (cells : Nat) (piece : Text) (used : Nat) : List Text → List Text
  | [] => [piece]
  | cluster :: rest =>
    if cells < used + clusterWidth cluster then
      piece :: chop cells cluster (clusterWidth cluster) rest
    else chop cells (piece ++ cluster) (used + clusterWidth cluster) rest

/-- Puts words on lines, of which the last one is `line` so far and has `used` cells. -/
def fillLines (overflow : Overflow) (cells : Nat) (line : Text) (used : Nat) :
    List Text → List Text
  | [] => [line]
  | word :: rest =>
    let needed := width (trimEnd isBlank word)
    if used + needed ≤ cells then
      fillLines overflow cells (line ++ word) (used + width word) rest
    else
      let pieces := if overflow = .fold ∧ cells < needed then chop cells [] 0 (clusters word)
        else [word]
      let last := pieces.getLast?.getD []
      (if line = [] then [] else [line]) ++ pieces.dropLast ++
        fillLines overflow cells last (width last) rest

/-- The pieces that a line is broken into. -/
def wrap (overflow : Overflow) (cells : Nat) (line : Text) : List Text :=
  if blank line then [line] else fillLines overflow cells [] 0 (wordsWithBlanks line)

/-- A line without the blanks at its end that follow as many characters as there are cells. -/
def trimExcess (cells : Nat) (line : Text) : Text :=
  line.take (max (trimEnd isBlank line).length cells)

/-- A line cut to a width if it is wider. -/
def shorten (overflow : Overflow) (cells : Nat) (line : Text) : Text :=
  if width line ≤ cells then line
  else match overflow with
    | .fold => fit cells line
    | .ellipsis => fit (cells - 1) line ++ "…"

end Scaffold.Text
