/-!
# Digits

Natural numbers in decimal and in lower-case hexadecimal, without leading zeros.
-/

namespace Converge.Text

def decimalDigits (n : Nat) : List Char := Nat.toDigits 10 n

def hexDigits (n : Nat) : List Char := Nat.toDigits 16 n

def decimal (n : Nat) : String := String.ofList (decimalDigits n)

end Converge.Text
