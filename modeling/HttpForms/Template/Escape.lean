import HttpForms.Text.Percent

/-!
# Escaping values

Values enter a URI percent-encoded, and a space becomes a plus. An operator either lets only
unreserved characters stand or every printable ASCII character.
-/

namespace HttpForms.Template

/-- Characters that never need encoding. -/
def isUnreserved (c : Char) : Bool :=
  Percent.isAlphanumeric c || "-_.!*()~".toList.contains c

/-- Characters that stand where reserved ones are allowed: printable ASCII without the space. -/
def isPrintableAscii (c : Char) : Bool :=
  '!' ≤ c && c ≤ '~'

/-- One character of a value as it is written. -/
def escapeChar (keep : Char → Bool) (c : Char) : List Char :=
  if c == ' ' then ['+'] else if keep c then [c] else Percent.encodeChar c

/-- A value as it is written. -/
def escape (reserved : Bool) (value : String) : String :=
  String.ofList (value.toList.flatMap
    (escapeChar (if reserved then isPrintableAscii else isUnreserved)))

/-- The first characters of a value, all of them without a limit. -/
def truncate (limit : Option Nat) (value : String) : String :=
  match limit with
  | some n => String.ofList (value.toList.take n)
  | none => value

example : escape false "Hello, é+" = "Hello%2C+%C3%A9%2B" := by decide +kernel
example : escape true "/a b\n%" = "/a+b%0A%" := by decide +kernel
example : truncate (some 2) "héllo" = "hé" := by decide +kernel

end HttpForms.Template
