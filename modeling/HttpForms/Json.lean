import HttpForms.Decimal.Binary64
import HttpForms.Entries

/-!
# JSON documents

A document as data: members of an object stand in order and no name stands twice. A number is an
integer of 64 bits where its text is one, and the nearest binary number of 64 bits otherwise.

This stands for what the package `serde_json` does when it is told to keep the order of members: its
documents, what it takes the text of a number for, and the text that it gives a number.
-/

namespace HttpForms

/-- A JSON number. -/
inductive Json.Number
  | integer (value : Int)
  | real (value : Decimal.Binary64)
  deriving DecidableEq, Repr

/-- A JSON document. -/
inductive Json
  | null
  | bool (value : Bool)
  | number (value : Json.Number)
  | string (value : String)
  | array (items : List Json)
  | object (members : List (String × Json))

namespace Json

namespace Number

/-- Takes a sign off the front of a number. -/
def splitSign : List Char → Bool × List Char
  | '-' :: rest => (true, rest)
  | '+' :: rest => (false, rest)
  | cs => (false, cs)

/-- The integer that a text gives, from the least signed to the greatest unsigned one of 64 bits. -/
def integer? (cs : List Char) : Option Int :=
  let (negative, digits) := splitSign cs
  ((Decimal.ofDigits? digits).map fun n => if negative then -(n : Int) else n).filter
    fun i => -0x8000000000000000 ≤ i && i < 0x10000000000000000

/-- The digits without their point, and the power of ten that the point stands for. -/
def splitPoint (cs : List Char) : Option (Nat × Int) :=
  let whole := cs.takeWhile (· != '.')
  let fraction := (cs.dropWhile (· != '.')).tail
  (Decimal.ofDigits? (whole ++ fraction)).map fun n => (n, -(fraction.length : Int))

/-- The binary number nearest to a decimal text. -/
def real? (cs : List Char) : Option Decimal.Binary64 := do
  let (negative, body) := splitSign cs
  let isMark : Char → Bool := fun c => c == 'e' || c == 'E'
  let (value, scale) ← splitPoint (body.takeWhile fun c => !isMark c)
  let power ← match body.dropWhile fun c => !isMark c with
    | [] => some 0
    | _ :: rest =>
      let (below, digits) := splitSign rest
      (Decimal.ofDigits? digits).map fun n => if below then -(n : Int) else (n : Int)
  Decimal.Binary64.ofDecimal? negative value (scale + power)

/-- Reads a number. -/
def ofString? (text : String) : Option Number :=
  match integer? text.toList with
  | some i => some (.integer i)
  | none => (real? text.toList).map .real

/-- Numbers are plain from five places after the point up to sixteen before it. -/
def layout : Decimal.Layout := ⟨-5, 16⟩

/-- The text of a number. -/
def text : Number → String
  | .integer i => Decimal.integerText i
  | .real x => layout.render x

end Number

/-- The object that a row of members makes; a repeated name takes the later value. -/
def ofMembers (members : List (String × Json)) : Json :=
  .object (Entries.ofList members)

example : (Number.ofString? "1e16").map Number.text = some "1e+16" := by decide +kernel
example : (Number.ofString? "5e-324").map Number.text = some "5e-324" := by decide +kernel
example : (Number.ofString? "123456.789").map Number.text = some "123456.789" := by decide +kernel
example : (Number.ofString? "18446744073709551616").map Number.text =
    some "1.8446744073709552e+19" := by decide +kernel
example : (Number.ofString? "-0.0").map Number.text = some "-0.0" := by decide +kernel

end Json

end HttpForms
