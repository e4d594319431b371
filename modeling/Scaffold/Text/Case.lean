import Scaffold.Text.Blank
import Scaffold.Text.CaseTable

/-!
Lower case and capitals over all of Unicode, with final sigma, and camel case.
-/

namespace Scaffold.Text

/-- The first entry that covers a code point: a special one, else a run, else the identity. -/
def caseImage (specials : List (Nat × List Nat)) (runs : List CaseRun) (c : Char) : Text :=
  match specials.lookup c.toNat with
  | some images => images.map Char.ofNat
  | none => [((runs.findSome? (·.image? c.toNat)).map Char.ofNat).getD c]

/-- The lower case of a character that stands by itself. -/
def lowerChar (c : Char) : Text :=
  caseImage lowerSpecials lowerRuns c

/-- The title case of a character. -/
def titleChar (c : Char) : Text :=
  caseImage titleSpecials titleRuns c

/-- Whether the nearest character that is not skipped is a letter with case. -/
def nextIsCased (t : Text) : Bool :=
  match t.dropWhile caseIgnorable.has with
  | [] => false
  | c :: _ => casedLetters.has c

/--
Lower case within a text, of which `before` holds what precedes, nearest first: a capital sigma
that ends a word has a form of its own.
-/
def lowerAfter (before : Text) : Text → Text
  | [] => []
  | c :: rest =>
    let image :=
      if c = 'Σ' then [if nextIsCased before && !nextIsCased rest then 'ς' else 'σ']
      else lowerChar c
    image ++ lowerAfter (c :: before) rest

def lower (t : Text) : Text :=
  lowerAfter [] t

/-- The first character in title case and the others in lower case. -/
def capitalize : Text → Text
  | [] => []
  | c :: rest => titleChar c ++ lowerAfter [c] rest

/-- The characters that separate the words of an identifier. -/
def isWordBreak (c : Char) : Bool :=
  c = '-' || c = '_' || isBlank c

/-- The runs of characters between word breaks. -/
def words (t : Text) : List Text :=
  (cut isWordBreak t).filter (· ≠ [])

/-- The words in one, all but the first capitalised; the first keeps all but its first letter. -/
def camelCase (t : Text) : Text :=
  match words t with
  | [] => []
  | [] :: rest => (rest.map capitalize).flatten
  | (c :: word) :: rest => lowerChar c ++ word ++ (rest.map capitalize).flatten

end Scaffold.Text
