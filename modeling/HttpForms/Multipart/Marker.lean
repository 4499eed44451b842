import HttpForms.Multipart.Boundary

/-!
# What follows a boundary

A boundary at the beginning of a line makes a boundary line only together with what follows it: two
hyphens close the body, padding and a line break open a section. Anything else is content that
merely looks like a boundary. With too little input the question stays open.
-/

namespace HttpForms.Multipart

/-- What the octets after a boundary make of it. -/
inductive Marker
  /-- A section opens behind this many octets. -/
  | opens (length : Nat)
  /-- The body is closed. -/
  | closes
  /-- More input decides. -/
  | undecided
  /-- No boundary line. -/
  | absent
  deriving DecidableEq, Repr

namespace Marker

/-- A space or tab, which transport may have put after a boundary. -/
def isPadding (b : UInt8) : Bool :=
  b == 0x20 || b == 0x09

/-- The two hyphens that close a body. -/
def closing : Bytes := [Bytes.hyphen, Bytes.hyphen]

/-- Reads the marker at the front of what follows a boundary. -/
def classify (rest : Bytes) : Marker :=
  if rest == [] || rest == [Bytes.hyphen] then .undecided
  else if closing.isPrefixOf rest then .closes
  else
    let after := rest.dropWhile isPadding
    if after == [] || after == [Bytes.cr] then .undecided
    else if Bytes.crlf.isPrefixOf after then
      .opens ((rest.takeWhile isPadding).length + Bytes.crlf.length)
    else .absent

example : classify (Utf8.encode " \t\r\nx") = .opens 4 := by decide +kernel
example : classify (Utf8.encode "--") = .closes := by decide +kernel
example : classify (Utf8.encode " --") = .absent := by decide +kernel
example : classify (Utf8.encode " \r") = .undecided := by decide +kernel

end Marker

end HttpForms.Multipart
