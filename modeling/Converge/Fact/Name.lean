import Converge.Text.LowerCase

/-!
# Names of facts

Docker writes field names in capitals and small letters, `RepoTags` or `NetworkSettings`.  Facts are
kept under the same names in lower case, with an underscore before each capital letter of ASCII that
is not the first character.  A few names are one token in spite of their capitals.
-/

namespace Converge.Fact

/-- Names that are lowered as a whole. -/
def wholeNames : List String := ["ID", "IPv6", "IPv4"]

/-- Whether a character is a capital letter of ASCII. -/
def isCapital (c : Char) : Bool := 'A' ≤ c && c ≤ 'Z'

/-- The characters of a name from its second one on, an underscore before every capital. -/
def split : List Char → List Char
  | [] => []
  | c :: cs => (if isCapital c then ['_'] else []) ++ Text.lowered c ++ split cs

def nameChars : List Char → List Char
  | [] => []
  | c :: cs => Text.lowered c ++ split cs

/-- The name under which docker's field is kept. -/
def name (key : String) : String :=
  if wholeNames.contains key then Text.lowercase key
  else String.ofList (nameChars key.toList)

end Converge.Fact
