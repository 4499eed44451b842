import HttpForms.Multipart.Headers

/-!
# Parts

A part is a section that is held as a whole: its headers and its content. It is what a writer is
given and what is left of a section that was read to its end.
-/

namespace HttpForms.Multipart

/-- The headers and the content of a section. -/
structure Part where
  headers : Headers
  content : Bytes
  deriving DecidableEq, Repr

end HttpForms.Multipart
