/-!
# Expression operators

The sigil after the opening brace of an expression selects an operator. It settles what stands before
and between the values, whether values carry their name, and which characters may stand as they are.
-/

namespace HttpForms.Template

/-- How an expression renders its values. -/
inductive Operator
  | simple
  | reserved
  | fragment
  | label
  | pathSegment
  | pathParameter
  | query
  | queryContinuation
  deriving DecidableEq, Repr

namespace Operator

/-- The operator a character selects. -/
def ofSigil? : Char → Option Operator
  | '+' => some .reserved
  | '#' => some .fragment
  | '.' => some .label
  | '/' => some .pathSegment
  | ';' => some .pathParameter
  | '?' => some .query
  | '&' => some .queryContinuation
  | _ => none

/-- The character that selects the operator; the simple one has none. -/
def sigil? : Operator → Option Char
  | .simple => none
  | .reserved => some '+'
  | .fragment => some '#'
  | .label => some '.'
  | .pathSegment => some '/'
  | .pathParameter => some ';'
  | .query => some '?'
  | .queryContinuation => some '&'

/-- What is written once before the first value. -/
def lead : Operator → String
  | .simple | .reserved => ""
  | .fragment => "#"
  | .label => "."
  | .pathSegment => "/"
  | .pathParameter => ";"
  | .query => "?"
  | .queryContinuation => "&"

/-- What is written between two values. -/
def separator : Operator → String
  | .simple | .reserved | .fragment => ","
  | .label => "."
  | .pathSegment => "/"
  | .pathParameter => ";"
  | .query | .queryContinuation => "&"

/-- Whether reserved characters of a value stand as they are. -/
def allowsReserved : Operator → Bool
  | .reserved | .fragment => true
  | _ => false

/-- Whether values are written as `name=value`. -/
def isQualified : Operator → Bool
  | .pathParameter | .query | .queryContinuation => true
  | _ => false

/-- Whether an empty value keeps its `=`. -/
def qualifiesEmpty : Operator → Bool
  | .query | .queryContinuation => true
  | _ => false

theorem ofSigil?_eq_some_iff {c : Char} {op : Operator} :
    ofSigil? c = some op ↔ op.sigil? = some c := by
  constructor
  · intro found
    unfold ofSigil? at found
    split at found <;> simp_all [sigil?] <;> subst found <;> rfl
  · intro found
    cases op <;> simp only [sigil?, Option.some.injEq, reduceCtorEq] at found <;> subst found <;> rfl

end Operator

end HttpForms.Template
