/-!
# Decimal numerals

Natural numbers as texts of ASCII digits. Reading accepts leading zeros, so only writing fixes one
spelling for each number.
-/

namespace HttpForms.Decimal

/-- An ASCII digit. -/
def isDigit (c : Char) : Bool :=
  '0' ≤ c && c ≤ '9'

/-- The value of a row of digits. -/
def valueOf (digits : List Char) : Nat :=
  digits.foldl (fun value c => 10 * value + (c.toNat - '0'.toNat)) 0

/-- Reads a number that consists of digits alone, at least one. -/
def ofDigits? (cs : List Char) : Option Nat :=
  if !cs.isEmpty && cs.all isDigit then some (valueOf cs) else none

/-- The digits of a number, without leading zeros. -/
def digits (n : Nat) : List Char :=
  Nat.toDigits 10 n

/-- The text of a number. -/
def text (n : Nat) : String :=
  String.ofList (digits n)

/-- The text of an integer, with a sign only when it is negative. -/
def integerText : Int → String
  | .ofNat n => text n
  | .negSucc n => "-" ++ text (n + 1)

example : ofDigits? "0042".toList = some 42 := by decide +kernel
example : ofDigits? "".toList = none := by decide +kernel
example : text 1024 = "1024" := by decide +kernel

end HttpForms.Decimal
