import HttpForms.Text.Blank
import HttpForms.Text.Case
import HttpForms.Text.Utf8

/-!
# Charsets

How the octets of headers and of text fields become text. Reading never fails: what a charset does
not assign becomes U+FFFD.
-/

namespace HttpForms

/-- A way to read octets as text. -/
inductive Charset
  | utf8
  | latin1
  | ascii
  deriving DecidableEq, Repr

namespace Charset

/-- The character with the number of an octet. -/
def charOfByte (b : UInt8) : Char :=
  Char.ofNat b.toNat

/-- Reads octets as text. -/
def decode (charset : Charset) (bytes : Bytes) : String :=
  match charset with
  | .utf8 => Utf8.decodeLossy bytes
  | .latin1 => String.ofList (bytes.map charOfByte)
  | .ascii => String.ofList (bytes.map fun b => if b < 0x80 then charOfByte b else Utf8.replacement)

/-- The labels that select a charset. -/
def labels : Charset → List String
  | .utf8 => ["utf-8", "utf8"]
  | .latin1 => ["iso-8859-1", "latin1", "l1", "iso_8859-1"]
  | .ascii => ["us-ascii", "ascii"]

/-- The charset that a label selects, in any case of ASCII letters and with blanks around it. -/
def ofLabel? (label : String) : Option Charset :=
  [utf8, latin1, ascii].find? fun charset =>
    charset.labels.any (Text.sameAscii (Text.trim label))

example : ofLabel? " Latin1\n" = some latin1 := by decide +kernel
example : ofLabel? "utf-16" = none := by decide +kernel
example : decode ascii [0x61, 0xE9] = "a\uFFFD" := by decide +kernel

end Charset

end HttpForms
