import Converge.Fact.Record
import Converge.Failure
import Converge.Json.Reader
import Converge.Text.Blank

/-!
# Responses

Docker answers with one JSON object on each line.  Blank lines are skipped, and any other line that
is no object fails the whole response.
-/

namespace Converge.Fact

/-- The record on a line that is not blank. -/
def parseLine (line : String) : Except LineFault Record :=
  match Json.read line with
  | .error stop => .error (.malformed stop.fault)
  | .ok (.object members) => .ok (.ofRaw members)
  | .ok other => .error (.notAnObject other)

/-- The records on the lines that follow the given number of lines. -/
def parseFrom (before : Nat) : List String → Except Failure (List Record)
  | [] => .ok []
  | line :: lines =>
    let line := Text.trim line
    if line.isEmpty then parseFrom (before + 1) lines
    else match parseLine line with
      | .error fault => .error (.facts (before + 1) fault)
      | .ok record => return record :: (← parseFrom (before + 1) lines)

def parse (lines : List String) : Except Failure (List Record) :=
  parseFrom 0 lines

end Converge.Fact
