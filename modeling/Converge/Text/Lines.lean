/-!
# Lines

Three ways of cutting text at line feeds.  `lines` reads the output of a program: a carriage return
before the line feed belongs to the line's end, and a final line feed opens no further line.
`printedLines` reads a single text that was printed with a line feed after it.  `pieces` keeps every
piece between two line feeds as it is.
-/

namespace Converge.Text

/-- The line whose characters were read last to first, without one carriage return at its end. -/
def endLine : List Char → List Char
  | '\r' :: cs => cs.reverse
  | cs => cs.reverse

/-- The lines of the characters that follow the start of a line, which is given last to first. -/
def linesFrom (line : List Char) : List Char → List (List Char)
  | [] => if line.isEmpty then [] else [line.reverse]
  | c :: cs => if c = '\n' then endLine line :: linesFrom [] cs else linesFrom (c :: line) cs

def lines (s : String) : List String :=
  (linesFrom [] s.toList).map String.ofList

/-- The lines of a text that is printed with a line feed after it. -/
def printedLines (s : String) : List String :=
  lines (s.push '\n')

/-- The pieces of the characters that follow the start of a piece, which is given last to first. -/
def piecesFrom (piece : List Char) : List Char → List (List Char)
  | [] => [piece.reverse]
  | c :: cs => if c = '\n' then piece.reverse :: piecesFrom [] cs else piecesFrom (c :: piece) cs

/-- The pieces between line feeds, one more than there are line feeds. -/
def pieces (s : String) : List String :=
  (piecesFrom [] s.toList).map String.ofList

end Converge.Text
