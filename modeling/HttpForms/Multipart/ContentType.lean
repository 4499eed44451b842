import HttpForms.Cut
import HttpForms.Text.Case
import HttpForms.Multipart.ParameterList

/-!
# Media types of bodies

The Content-Type of a body names the boundary among its parameters. Only a multipart type has one.
-/

namespace HttpForms.Multipart.ContentType

/-- Whether a media type is `multipart/` something. -/
def isMultipart (mediaType : List Char) : Bool :=
  match cut? '/' (Text.trimChars mediaType) with
  | some (primary, _) =>
    Text.sameAscii (String.ofList (Text.trimChars primary)) "multipart"
  | none => false

/-- The boundary parameter of a multipart type; the first one counts, and an empty one is none. -/
def boundary? (contentType : String) : Option String :=
  match cut? ';' contentType.toList with
  | some (mediaType, parameters) =>
    if isMultipart mediaType then
      (((ParameterList.parseChars parameters).find? fun (name, _) =>
        Text.sameAscii name "boundary").map Prod.snd).filter (!·.isEmpty)
    else none
  | none => none

example : boundary? "Multipart/Mixed; charset=utf-8; Boundary=\"a b\"" = some "a b" := by
  decide +kernel
example : boundary? "text/plain; boundary=x" = none := by decide +kernel

end HttpForms.Multipart.ContentType
