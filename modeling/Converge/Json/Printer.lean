import Converge.Decimal.Shortest
import Converge.Json.Basic
import Converge.Text.Digits

/-!
# Writing JSON

The compact text of a tree: no blanks, members in the order of the tree, and only quotes,
backslashes and control characters escaped.
-/

namespace Converge

namespace Number

/-- A float in plain notation while its first digit stands at a power of ten from -5 to 15, with at
least one digit after the point; beyond that in scientific notation with a signed exponent. -/
def floatChars (x : Decimal.Binary64) : List Char :=
  let sign := if x.negative then ['-'] else []
  if x.magnitude.isZero then sign ++ ['0', '.', '0']
  else
    let d := x.magnitude.shortest
    let ds := Text.decimalDigits d.digits
    let first := d.point - 1
    sign ++
      if -5 ≤ first ∧ first ≤ 15 then
        if d.point ≤ 0 then ['0', '.'] ++ List.replicate (-d.point).toNat '0' ++ ds
        else
          let whole := d.point.toNat
          if ds.length ≤ whole then ds ++ List.replicate (whole - ds.length) '0' ++ ['.', '0']
          else ds.take whole ++ ['.'] ++ ds.drop whole
      else
        let mantissa := match ds with
          | [] | [_] => ds
          | c :: cs => c :: '.' :: cs
        mantissa ++ ['e', if first < 0 then '-' else '+'] ++ Text.decimalDigits first.natAbs

def chars : Number → List Char
  | integer n => (if n < 0 then ['-'] else []) ++ Text.decimalDigits n.natAbs
  | float x => floatChars x

end Number

namespace Json

def escapeChar (c : Char) : List Char :=
  if c = '"' then ['\\', '"']
  else if c = '\\' then ['\\', '\\']
  else if c = '\x08' then ['\\', 'b']
  else if c = '\t' then ['\\', 't']
  else if c = '\n' then ['\\', 'n']
  else if c = '\x0c' then ['\\', 'f']
  else if c = '\r' then ['\\', 'r']
  else if c.toNat < 0x20 then
    ['\\', 'u', '0', '0', Nat.digitChar (c.toNat / 16), Nat.digitChar (c.toNat % 16)]
  else [c]

/-- A string between its quotes. -/
def textChars (s : String) : List Char :=
  '"' :: s.toList.flatMap escapeChar ++ ['"']

mutual

/-- The characters of a tree. -/
def chars : Json → List Char
  | .null => ['n', 'u', 'l', 'l']
  | .bool true => ['t', 'r', 'u', 'e']
  | .bool false => ['f', 'a', 'l', 's', 'e']
  | .number n => n.chars
  | .text s => textChars s
  | .array items => '[' :: itemsChars items
  | .object members => '\x7b' :: membersChars members
termination_by structural v => v

/-- The characters from after the opening bracket on. -/
def itemsChars : List Json → List Char
  | [] => [']']
  | v :: vs => chars v ++ moreItemsChars vs
termination_by structural vs => vs

/-- The characters after an item. -/
def moreItemsChars : List Json → List Char
  | [] => [']']
  | v :: vs => ',' :: chars v ++ moreItemsChars vs
termination_by structural vs => vs

/-- The characters from after the opening brace on. -/
def membersChars : List (String × Json) → List Char
  | [] => ['\x7d']
  | m :: ms => memberChars m ++ moreMembersChars ms
termination_by structural ms => ms

/-- The characters after a member. -/
def moreMembersChars : List (String × Json) → List Char
  | [] => ['\x7d']
  | m :: ms => ',' :: memberChars m ++ moreMembersChars ms
termination_by structural ms => ms

def memberChars : String × Json → List Char
  | (k, v) => textChars k ++ ':' :: chars v
termination_by structural m => m

end

/-- The compact text of a tree. -/
def render (v : Json) : String :=
  String.ofList v.chars

end Json

end Converge
