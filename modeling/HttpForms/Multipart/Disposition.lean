import HttpForms.Cut
import HttpForms.Charset
import HttpForms.Text.Percent
import HttpForms.Multipart.ParameterList

/-!
# Content dispositions

A disposition says what a section is for: a type, and parameters such as the name of a form field
and the name of an uploaded file. Names of parameters match by their lower-casing, and the first of
equal names counts.
-/

namespace HttpForms.Multipart

/-- The parsed value of a Content-Disposition header. -/
structure Disposition where
  kind : String
  /-- Names are lower-cased, and none stands twice. -/
  parameters : List (String × String)
  deriving DecidableEq, Repr

namespace Disposition

/-- Keeps the first of equal names, all of them lower-cased. -/
def firstOfEach (parameters : List (String × String)) : List (String × String) :=
  parameters.foldl (fun kept (name, value) =>
    if kept.any (·.1 == Text.lower name) then kept else kept ++ [(Text.lower name, value)]) []

/-- A disposition with parameters in any case and any number. -/
def ofParameters (kind : String) (parameters : List (String × String)) : Disposition :=
  ⟨kind, firstOfEach parameters⟩

/-- Reads a header value. There is no disposition without a token in front. -/
def ofString? (value : String) : Option Disposition :=
  let trimmed := Text.trimChars value.toList
  let (kind, parameters) := match cut? ';' trimmed with
    | some (kind, parameters) => (Text.trimChars kind, Text.trimChars parameters)
    | none => (trimmed, [])
  if isToken kind then
    some (ofParameters (String.ofList kind) (ParameterList.parseChars parameters))
  else none

/-- The value of a parameter. -/
def get? (d : Disposition) (name : String) : Option String :=
  (d.parameters.find? (·.1 == Text.lower name)).map Prod.snd

/-- Whether the disposition is of a type, in any case of ASCII letters. -/
def isKind (d : Disposition) (kind : String) : Bool :=
  Text.sameAscii d.kind kind

/-- Reads a value of the form `charset'language'text` with the text percent-encoded. -/
def decodeExtended? (value : String) : Option String := do
  let (charset, rest) ← cut? '\'' value.toList
  let (_, encoded) ← cut? '\'' rest
  let bytes := Percent.decode (Utf8.encodeChars encoded)
  if Text.sameAscii (String.ofList charset) "utf-8" then Utf8.decode? bytes
  else if Text.sameAscii (String.ofList charset) "iso-8859-1" then
    some (Charset.latin1.decode bytes)
  else none

/-- The name of the form field. -/
def name (d : Disposition) : Option String :=
  d.get? "name"

/-- The name of the uploaded file. The extended parameter goes before the plain one if it can be
decoded. -/
def filename (d : Disposition) : Option String :=
  ((d.get? "filename*").bind decodeExtended?).or (d.get? "filename")

example : (ofString? "attachment; filename=\"x\"; FileName*=UTF-8''na%C3%AFve").bind filename =
    some "naïve" := by decide +kernel
example : ofString? "form data; name=x" = none := by decide +kernel

end Disposition

end HttpForms.Multipart
