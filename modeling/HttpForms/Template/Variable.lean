import HttpForms.Decimal.Natural

/-!
# Variables of an expression

One variable is a name with two optional modifiers: `name:n` takes the first `n` characters of the
value, `name*` spreads a list or map out. A colon that no length follows belongs to the name.
-/

namespace HttpForms.Template

/-- One variable of an expression. -/
structure Variable where
  name : String
  /-- The number of characters a value is cut to. -/
  maxLength : Option Nat
  exploded : Bool
  deriving DecidableEq, Repr

namespace Variable

/-- A variable without modifiers; the name is taken as it is. -/
def plain (name : String) : Variable :=
  ⟨name, none, false⟩

/-- The first number that is too large for a length. -/
def lengthBound : Nat :=
  0x10000000000000000

/-- Reads a length: digits after an optional plus, from one to below the bound. -/
def length? (cs : List Char) : Option Nat :=
  let digits := match cs with
    | '+' :: rest => rest
    | cs => cs
  (Decimal.ofDigits? digits).filter fun n => 0 < n && n < lengthBound

/-- The text without a star at its end, and whether there was one. -/
def splitStar (cs : List Char) : List Char × Bool :=
  if cs.getLast? == some '*' then (cs.dropLast, true) else (cs, false)

/-- What stands before and after the last colon. -/
def splitLastColon (cs : List Char) : Option (List Char × List Char) :=
  if cs.contains ':' then
    some ((cs.reverse.dropWhile (· != ':')).tail.reverse, (cs.reverse.takeWhile (· != ':')).reverse)
  else none

/-- The name and the length that the text gives, the whole of it being the name if the part after
the last colon is no length. -/
def splitLength (cs : List Char) : List Char × Option Nat :=
  match splitLastColon cs with
  | none => (cs, none)
  | some (name, suffix) =>
    match length? suffix with
    | some n => (name, some n)
    | none => (cs, none)

/-- A brace, which no name holds. -/
def isBrace (c : Char) : Bool :=
  c == '\x7b' || c == '\x7d'

/-- Reads one variable. It has none if the name is empty or holds a brace. -/
def ofChars? (spec : List Char) : Option Variable :=
  let (body, exploded) := splitStar spec
  let (name, maxLength) := splitLength body
  if name.isEmpty || name.any isBrace then none
  else some ⟨String.ofList name, maxLength, exploded⟩

/-- Reads one variable from a text. -/
def ofString? (spec : String) : Option Variable :=
  ofChars? spec.toList

/-- The spelling of a variable, with lengths in plain decimal. -/
def toChars (v : Variable) : List Char :=
  v.name.toList ++ (match v.maxLength with
    | some n => ':' :: Decimal.digits n
    | none => []) ++ (if v.exploded then ['*'] else [])

/-- The spelling of a variable as a text. -/
def display (v : Variable) : String :=
  String.ofList v.toChars

example : ofString? "path:4*" = some ⟨"path", some 4, true⟩ := by decide +kernel
example : ofString? "a:b:+03" = some ⟨"a:b", some 3, false⟩ := by decide +kernel
example : ofString? "var:0" = some (plain "var:0") := by decide +kernel
example : ofString? ":3" = none := by decide +kernel

end Variable

end HttpForms.Template
