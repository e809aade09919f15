import Converge.Json.Numeral

/-!
# Reading JSON

The reader takes one character at a time.  Its state is the stack of the containers that are open,
with what each holds so far, and the place within the innermost one.  The first character that does
not fit stops it; the state at that moment stays visible, because a document is judged as far as it
was read.
-/

namespace Converge.Json

/-- A container that is open, with what it holds so far, newest first.  An object has a pending key
while the key's value is being read. -/
inductive Frame where
  | array (items : List Json)
  | object (members : List (String × Json)) (key : Option String)
deriving Repr

/-- Where a string's reader stands with an escape.  In `digits`, `bytes` counts how much of the
input was taken for the four digits, and `code` is their value unless one of them is no digit.  The
first half of a surrogate pair waits in `lead`. -/
inductive Escape where
  | none
  | letter
  | digits (lead : Option Nat) (bytes : Nat) (code : Option Nat)
  | backslash (lead : Nat)
  | letterU (lead : Nat)
deriving DecidableEq, Repr

/-- What the reader expects next.  The characters of a string are kept newest first. -/
inductive Place where
  | value
  | firstItem
  | nextItem
  | firstKey
  | nextKey
  | colon
  | separator
  | finished (v : Json)
  | word (next : Char) (rest : List Char) (v : Json)
  | numeral (n : Numeral)
  | string (isKey : Bool) (cs : List Char) (escape : Escape)
deriving Repr

structure Reader where
  opened : List Frame
  place : Place
deriving Repr

/-- A reader that met a fault, with what it had read before. -/
structure Stop where
  seen : Reader
  fault : Fault
deriving Repr

namespace Reader

/-- Most containers that may be open at once. -/
def maxDepth : Nat := 127

def start : Reader := ⟨[], .value⟩

def stop (r : Reader) (f : Fault) : Except Stop Reader := .error ⟨r, f⟩

/-- Whether the character is blank between two lexemes. -/
def isSpace (c : Char) : Bool := c == ' ' || c == '\t' || c == '\n' || c == '\r'

def goto (r : Reader) (p : Place) : Reader := { r with place := p }

/-- Puts a complete value where it belongs. -/
def give (r : Reader) (v : Json) : Reader :=
  match r.opened with
  | [] => ⟨[], .finished v⟩
  | .array items :: fs => ⟨.array (v :: items) :: fs, .separator⟩
  | .object members (some k) :: fs => ⟨.object ((k, v) :: members) none :: fs, .separator⟩
  | .object members none :: fs => ⟨.object members none :: fs, .separator⟩

/-- Opens a container, unless too many are open. -/
def openFrame (r : Reader) (f : Frame) (p : Place) : Except Stop Reader :=
  if r.opened.length < maxDepth then .ok ⟨f :: r.opened, p⟩ else r.stop .nestedTooDeep

/-- Closes the innermost container and gives it on as a value. -/
def close (r : Reader) : Reader :=
  match r.opened with
  | .array items :: fs => give ⟨fs, r.place⟩ (.array items.reverse)
  | .object members _ :: fs => give ⟨fs, r.place⟩ (.object members.reverse)
  | [] => r

/-! ## Between two lexemes -/

def startValue (r : Reader) (c : Char) : Except Stop Reader :=
  if isSpace c then .ok r
  else if c = '"' then .ok (r.goto (.string false [] .none))
  else if c = '-' then .ok (r.goto (.numeral .minus))
  else if Numeral.isDigit c then .ok (r.goto (.numeral (.ofDigit c)))
  else if c = 't' then .ok (r.goto (.word 'r' ['u', 'e'] (.bool true)))
  else if c = 'f' then .ok (r.goto (.word 'a' ['l', 's', 'e'] (.bool false)))
  else if c = 'n' then .ok (r.goto (.word 'u' ['l', 'l'] .null))
  else if c = '[' then r.openFrame (.array []) .firstItem
  else if c = '\x7b' then r.openFrame (.object [] none) .firstKey
  else r.stop .expectedValue

def startKey (r : Reader) (c : Char) : Except Stop Reader :=
  if isSpace c then .ok r
  else if c = '"' then .ok (r.goto (.string true [] .none))
  else r.stop .keyMustBeString

/-- Reads a character after an item or a member of the innermost container. -/
def separate (r : Reader) (c : Char) : Except Stop Reader :=
  if isSpace c then .ok r
  else match r.opened with
    | .array _ :: _ =>
      if c = ',' then .ok (r.goto .nextItem)
      else if c = ']' then .ok r.close
      else r.stop .expectedListCommaOrEnd
    | .object .. :: _ =>
      if c = ',' then .ok (r.goto .nextKey)
      else if c = '\x7d' then .ok r.close
      else r.stop .expectedObjectCommaOrEnd
    | [] => r.stop .trailingCharacters

/-! ## Strings -/

def hexDigit? (c : Char) : Option Nat :=
  if '0' ≤ c ∧ c ≤ '9' then some (c.toNat - '0'.toNat)
  else if 'a' ≤ c ∧ c ≤ 'f' then some (c.toNat - 'a'.toNat + 10)
  else if 'A' ≤ c ∧ c ≤ 'F' then some (c.toNat - 'A'.toNat + 10)
  else none

/-- The character that an escape of one letter stands for. -/
def escapedChar? (c : Char) : Option Char :=
  if c = '"' ∨ c = '\\' ∨ c = '/' then some c
  else if c = 'b' then some '\x08'
  else if c = 'f' then some '\x0c'
  else if c = 'n' then some '\n'
  else if c = 'r' then some '\r'
  else if c = 't' then some '\t'
  else none

/-- The string goes on after the escape for a code unit.  A first half of a pair needs a second one,
and no half stands alone. -/
def unit (cs : List Char) (lead : Option Nat) (code : Nat) : Except Fault (List Char × Escape) :=
  match lead with
  | some high =>
    if 0xDC00 ≤ code ∧ code ≤ 0xDFFF then
      .ok (Char.ofNat (0x10000 + (high - 0xD800) * 0x400 + (code - 0xDC00)) :: cs, .none)
    else .error .loneSurrogate
  | none =>
    if 0xDC00 ≤ code ∧ code ≤ 0xDFFF then .error .loneSurrogate
    else if 0xD800 ≤ code ∧ code ≤ 0xDBFF then .ok (cs, .backslash code)
    else .ok (Char.ofNat code :: cs, .none)

/-- Takes one more character of the four bytes after the letter of a code unit. -/
def hexStep (cs : List Char) (lead : Option Nat) (bytes : Nat) (code : Option Nat) (c : Char) :
    Except Fault (List Char × Escape) :=
  let bytes := bytes + c.utf8Size
  let code := do return (← code) * 16 + (← hexDigit? c)
  if bytes < 4 then .ok (cs, .digits lead bytes code)
  else match code with
    | some n => unit cs lead n
    | none => .error .invalidEscape

def stringStep (cs : List Char) (e : Escape) (c : Char) : Except Fault (List Char × Escape) :=
  match e with
  | .none =>
    if c = '\\' then .ok (cs, .letter)
    else if c.toNat < 0x20 then .error .controlCharacter
    else .ok (c :: cs, .none)
  | .letter =>
    if c = 'u' then .ok (cs, .digits none 0 (some 0))
    else match escapedChar? c with
      | some d => .ok (d :: cs, .none)
      | none => .error .invalidEscape
  | .digits lead bytes code => hexStep cs lead bytes code c
  | .backslash lead =>
    if c = '\\' then .ok (cs, .letterU lead) else .error .unfinishedSurrogatePair
  | .letterU lead =>
    if c = 'u' then .ok (cs, .digits (some lead) 0 (some 0)) else .error .unfinishedSurrogatePair

/-- Takes a complete string, as a value or as the pending key. -/
def giveString (r : Reader) (isKey : Bool) (cs : List Char) : Reader :=
  let s := String.ofList cs.reverse
  if isKey then
    match r.opened with
    | .object members _ :: fs => ⟨.object members (some s) :: fs, .colon⟩
    | _ => r.goto .colon
  else r.give (.text s)

/-! ## The whole text -/

def step (r : Reader) (c : Char) : Except Stop Reader :=
  match r.place with
  | .value => r.startValue c
  | .firstItem => if c = ']' then .ok r.close else r.startValue c
  | .nextItem => if c = ']' then r.stop .trailingComma else r.startValue c
  | .firstKey => if c = '\x7d' then .ok r.close else r.startKey c
  | .nextKey => if c = '\x7d' then r.stop .trailingComma else r.startKey c
  | .colon =>
    if isSpace c then .ok r
    else if c = ':' then .ok (r.goto .value)
    else r.stop .expectedColon
  | .separator | .finished _ => r.separate c
  | .word next rest v =>
    if c ≠ next then r.stop .expectedIdent
    else match rest with
      | [] => .ok (r.give v)
      | d :: ds => .ok (r.goto (.word d ds v))
  | .numeral n =>
    match n.step c with
    | .error f => r.stop f
    | .ok (some longer) => .ok (r.goto (.numeral longer))
    | .ok none =>
      match n.value with
      | .error f => r.stop f
      | .ok v => (r.give (.number v)).separate c
  | .string isKey cs e =>
    if e = .none ∧ c = '"' then .ok (r.giveString isKey cs)
    else match stringStep cs e c with
      | .ok (cs, e) => .ok (r.goto (.string isKey cs e))
      | .error f => r.stop f

/-- What the end of the text is a fault of, between two lexemes. -/
def endFault (r : Reader) : Fault :=
  match r.place, r.opened with
  | .firstItem, _ => .endOfList
  | .firstKey, _ | .colon, _ => .endOfObject
  | .separator, .array _ :: _ => .endOfList
  | .separator, _ => .endOfObject
  | .string .., _ => .endOfString
  | _, _ => .endOfValue

/-- The value of the whole text, if the text may end here. -/
def result (r : Reader) : Except Stop Json :=
  match r.place with
  | .finished v => .ok v
  | _ => .error ⟨r, r.endFault⟩

/-- Ends the text.  A numeral ends with it. -/
def finish (r : Reader) : Except Stop Json :=
  match r.place with
  | .numeral n =>
    if n.isComplete then
      match n.value with
      | .ok v => (r.give (.number v)).result
      | .error f => .error ⟨r, f⟩
    else .error ⟨r, .endOfValue⟩
  | _ => r.result

end Reader

def readChars (cs : List Char) : Except Stop Json := do
  let r ← cs.foldlM Reader.step Reader.start
  r.finish

/-- Reads a document. -/
def read (text : String) : Except Stop Json :=
  readChars text.toList

end Converge.Json
