/-!
# UTF-8 with replacement

Reading bytes as UTF-8 where every maximal ill-formed subsequence becomes one U+FFFD.  The reader
takes one byte at a time: between two characters it is `idle`, and inside one it knows how many
bytes are missing and which values the next one may have.
-/

namespace Converge.Text

/-- What the bytes read so far ask of the next one. -/
inductive Utf8State where
  | idle
  | within (missing : Nat) (low high : Nat) (code : Nat)

/-- What stands for an ill-formed subsequence. -/
def replacement : Char := Char.ofNat 0xFFFD

namespace Utf8State

/-- What a byte between two characters gives: characters at once, or the start of one. -/
def lead (b : Nat) : List Char × Utf8State :=
  if b < 0x80 then ([Char.ofNat b], idle)
  else if 0xC2 ≤ b ∧ b ≤ 0xDF then ([], within 0 0x80 0xBF (b - 0xC0))
  else if b = 0xE0 then ([], within 1 0xA0 0xBF 0)
  else if b = 0xED then ([], within 1 0x80 0x9F 0xD)
  else if 0xE1 ≤ b ∧ b ≤ 0xEF then ([], within 1 0x80 0xBF (b - 0xE0))
  else if b = 0xF0 then ([], within 2 0x90 0xBF 0)
  else if 0xF1 ≤ b ∧ b ≤ 0xF3 then ([], within 2 0x80 0xBF (b - 0xF0))
  else if b = 0xF4 then ([], within 2 0x80 0x8F 4)
  else ([replacement], idle)

/-- The characters that one more byte completes, and the state after it.  A byte that cannot
continue a character ends an ill-formed subsequence and is read again as a first byte. -/
def step : Utf8State → Nat → List Char × Utf8State
  | idle, b => lead b
  | within missing low high code, b =>
    if low ≤ b ∧ b ≤ high then
      match missing with
      | 0 => ([Char.ofNat (code * 64 + (b - 0x80))], idle)
      | m + 1 => ([], within m 0x80 0xBF (code * 64 + (b - 0x80)))
    else
      let (cs, next) := lead b
      (replacement :: cs, next)

/-- The characters of the bytes that follow. -/
def decode : Utf8State → List UInt8 → List Char
  | idle, [] => []
  | within .., [] => [replacement]
  | s, b :: bs =>
    let (cs, next) := s.step b.toNat
    cs ++ next.decode bs

end Utf8State

def decodeUtf8 (bytes : List UInt8) : String :=
  String.ofList (Utf8State.idle.decode bytes)

end Converge.Text
