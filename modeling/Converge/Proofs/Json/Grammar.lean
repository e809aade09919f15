import Converge.Json.Numeral

/-!
# The texts of a tree

`Json.TextOf v cs` says that the characters `cs` are a JSON text of the tree `v`: blanks may stand
around every lexeme, a character of a string may be written in every way that the notation allows,
and a number as any numeral of its value.  The members of an object are the tree's members in
document order, the ones under equal keys included.
-/

namespace Converge.Json

/-! ## Blanks and strings -/

/-- The four characters that may stand between lexemes. -/
def IsBlank (c : Char) : Prop := c = ' ' ∨ c = '\t' ∨ c = '\n' ∨ c = '\r'

def IsHexDigit (n : Nat) (c : Char) : Prop :=
  n < 16 ∧ (c = Nat.digitChar n ∨ c = (Nat.digitChar n).toUpper)

inductive CodeUnit : Nat → List Char → Prop where
  | digits {a b c d : Nat} {w x y z : Char} (ha : IsHexDigit a w) (hb : IsHexDigit b x)
      (hc : IsHexDigit c y) (hd : IsHexDigit d z) :
      CodeUnit (((a * 16 + b) * 16 + c) * 16 + d) [w, x, y, z]

def escapes : List (Char × Char) := [
  ('"', '"'), ('\\', '\\'), ('/', '/'), ('b', '\x08'), ('f', '\x0c'), ('n', '\n'), ('r', '\r'),
  ('t', '\t')]

/-- The ways in which a character can be written within a string. -/
inductive CharText : Char → List Char → Prop where
  | plain {c : Char} (quote : c ≠ '"') (backslash : c ≠ '\\') (control : 0x20 ≤ c.toNat) :
      CharText c [c]
  | letter {l c : Char} (listed : (l, c) ∈ escapes) : CharText c ['\\', l]
  | unit {c : Char} {ds : List Char} (code : CodeUnit c.toNat ds) : CharText c ('\\' :: 'u' :: ds)
  | pair {c : Char} {high low : Nat} {ds es : List Char} (first : CodeUnit high ds)
      (second : CodeUnit low es) (leads : 0xD800 ≤ high ∧ high ≤ 0xDBFF)
      (trails : 0xDC00 ≤ low ∧ low ≤ 0xDFFF)
      (code : c.toNat = 0x10000 + (high - 0xD800) * 0x400 + (low - 0xDC00)) :
      CharText c ('\\' :: 'u' :: ds ++ '\\' :: 'u' :: es)

inductive BodyText : List Char → List Char → Prop where
  | nil : BodyText [] []
  | cons {c : Char} {cs text more : List Char} (first : CharText c text) (rest : BodyText cs more) :
      BodyText (c :: cs) (text ++ more)

/-! ## Numerals -/

namespace Numeral

def fractionChars : Option (List Char) → List Char
  | some ds => '.' :: ds
  | none => []

def exponentChars : Option Exponent → List Char
  | some e => e.mark :: (e.sign.toList ++ e.digits)
  | none => []

def chars (n : Numeral) : List Char :=
  (if n.negative then ['-'] else []) ++ n.whole ++ fractionChars n.fraction ++
    exponentChars n.exponent

/-- No digit but a zero alone may start with a zero, and no part lacks its digits. -/
structure IsWellFormed (n : Numeral) : Prop where
  whole : n.whole ≠ [] ∧ ∀ c ∈ n.whole, isDigit c = true
  leading : n.whole.head? = some '0' → n.whole = ['0']
  fraction : ∀ ds, n.fraction = some ds → ds ≠ [] ∧ ∀ c ∈ ds, isDigit c = true
  mark : ∀ e, n.exponent = some e → e.mark = 'e' ∨ e.mark = 'E'
  sign : ∀ e c, n.exponent = some e → e.sign = some c → c = '+' ∨ c = '-'
  exponent : ∀ e, n.exponent = some e → e.digits ≠ [] ∧ ∀ c ∈ e.digits, isDigit c = true

end Numeral

/-! ## Trees -/

structure Entry where
  key : String
  keyText : List Char
  value : Json
  valueText : List Char

namespace Entry

def member (e : Entry) : String × Json := (e.key, e.value)

def chars (e : Entry) : List Char := e.keyText ++ ':' :: e.valueText

end Entry

def KeyText (key : String) (cs : List Char) : Prop :=
  ∃ before body after, (∀ c ∈ before, IsBlank c) ∧ (∀ c ∈ after, IsBlank c) ∧
    BodyText key.toList body ∧ cs = before ++ '"' :: (body ++ '"' :: after)

/-- The texts of a tree. -/
inductive TextOf : Json → List Char → Prop where
  | null : TextOf .null ['n', 'u', 'l', 'l']
  | false : TextOf (.bool false) ['f', 'a', 'l', 's', 'e']
  | true : TextOf (.bool true) ['t', 'r', 'u', 'e']
  | number {n : Numeral} {x : Number} (wellFormed : n.IsWellFormed) (value : n.value = .ok x) :
      TextOf (.number x) n.chars
  | text {s : String} {body : List Char} (written : BodyText s.toList body) :
      TextOf (.text s) ('"' :: (body ++ ['"']))
  | emptyArray {blanks : List Char} (blank : ∀ c ∈ blanks, IsBlank c) :
      TextOf (.array []) ('[' :: (blanks ++ [']']))
  | array (first : Json × List Char) (more : List (Json × List Char))
      (written : ∀ p ∈ first :: more, TextOf p.1 p.2) :
      TextOf (.array ((first :: more).map Prod.fst))
        ('[' :: (first.2 ++ (more.flatMap (fun p => ',' :: p.2) ++ [']'])))
  | emptyObject {blanks : List Char} (blank : ∀ c ∈ blanks, IsBlank c) :
      TextOf (.object []) ('\x7b' :: (blanks ++ ['\x7d']))
  | object (first : Entry) (more : List Entry)
      (keys : ∀ e ∈ first :: more, KeyText e.key e.keyText)
      (written : ∀ e ∈ first :: more, TextOf e.value e.valueText) :
      TextOf (.object ((first :: more).map Entry.member))
        ('\x7b' :: (first.chars ++ (more.flatMap (fun e => ',' :: e.chars) ++ ['\x7d'])))
  | padded {v : Json} {cs before after : List Char} (written : TextOf v cs)
      (blankBefore : ∀ c ∈ before, IsBlank c) (blankAfter : ∀ c ∈ after, IsBlank c) :
      TextOf v (before ++ (cs ++ after))

/-! ## Nesting -/

mutual

/-- How many arrays and objects stand within one another at most. -/
def depth : Json → Nat
  | .array items => itemsDepth items + 1
  | .object members => membersDepth members + 1
  | .null => 0
  | .bool _ => 0
  | .number _ => 0
  | .text _ => 0
termination_by structural v => v

def itemsDepth : List Json → Nat
  | [] => 0
  | v :: vs => max (depth v) (itemsDepth vs)
termination_by structural vs => vs

def membersDepth : List (String × Json) → Nat
  | [] => 0
  | m :: ms => max (memberDepth m) (membersDepth ms)
termination_by structural ms => ms

def memberDepth : String × Json → Nat
  | (_, v) => depth v
termination_by structural m => m

end

theorem itemsDepth_le_iff {items : List Json} {n : Nat} :
    itemsDepth items ≤ n ↔ ∀ v ∈ items, v.depth ≤ n := by
  induction items with
  | nil => simp [itemsDepth]
  | cons v vs ih => rw [itemsDepth, Nat.max_le, ih, List.forall_mem_cons]

theorem membersDepth_le_iff {members : List (String × Json)} {n : Nat} :
    membersDepth members ≤ n ↔ ∀ m ∈ members, m.2.depth ≤ n := by
  induction members with
  | nil => simp [membersDepth]
  | cons m ms ih =>
      have hmember : memberDepth m = m.2.depth := by
        cases m
        simp [memberDepth]
      rw [membersDepth, Nat.max_le, hmember, ih, List.forall_mem_cons]

end Converge.Json
