import HttpForms.Base64
import HttpForms.Multipart.Part
import HttpForms.Multipart.Reader.Events
import HttpForms.Multipart.Section

/-!
# Forms

A form is a body whose sections have names. A section with a filename is an uploaded file and keeps
its octets; every other one is a field and becomes text. A section without a name is passed over.
-/

namespace HttpForms.Multipart

/-! ## Parts of a form -/

/-- An uploaded file. -/
structure FormFile where
  name : String
  filename : String
  headers : Headers
  /-- The octets as they were sent. -/
  contents : Bytes
  deriving DecidableEq, Repr

namespace FormFile

/-- The media type of the file. -/
def contentType (f : FormFile) : Option String :=
  f.headers.contentType

/-- Whether the file was sent in Base64. -/
def isBase64 (f : FormFile) : Bool :=
  match f.headers.get? "Content-Transfer-Encoding" with
  | some encoding => Text.sameAscii (Text.trim encoding) "base64"
  | none => false

/-- The octets of the file, with Base64 undone. -/
def decodedContents (f : FormFile) : Except Base64.Fault Bytes :=
  if f.isBase64 then Base64.decodeFolded f.contents else .ok f.contents

end FormFile

namespace Part

/-- The name and the text of a field. -/
def field? (charset : Charset) (p : Part) : Option (String × String) :=
  match p.headers.fieldName, p.headers.filename with
  | some name, none => some (name, charset.decode p.content)
  | _, _ => none

/-- The file that a part holds. -/
def file? (p : Part) : Option FormFile :=
  match p.headers.fieldName, p.headers.filename with
  | some name, some filename => some ⟨name, filename, p.headers, p.content⟩
  | _, _ => none

end Part

/-! ## Forms -/

/-- Fields and files, each in document order. -/
structure Form where
  fields : List (String × String)
  files : List FormFile
  deriving DecidableEq, Repr

namespace Form

/-- The form that the parts of a body make. -/
def ofParts (charset : Charset) (parts : List Part) : Form :=
  ⟨parts.filterMap (Part.field? charset), parts.filterMap Part.file?⟩

/-- The text of the first field of a name. -/
def getField (form : Form) (name : String) : Option String :=
  (form.fields.find? (·.1 == name)).map Prod.snd

/-- The first file of a name. -/
def getFile (form : Form) (name : String) : Option FormFile :=
  form.files.find? (·.name == name)

end Form

namespace Reader

variable {σ : Type} [ByteSource σ]

/-- All sections of a body that is read to its end, or the first failure. -/
def parts (mode : Mode) (r : Reader σ) : Except Failure (List Part) :=
  match _event : r.nextEvent mode with
  | (.ok none, _) => .ok []
  | (.ok (some (.opened headers)), t) =>
    match _content : t.readAll mode with
    | (.ok content, u) => (parts mode u).map (⟨headers, content⟩ :: ·)
    | (.error failure, _) => .error failure
  | (.ok (some (.preamble _)), t) | (.ok (some (.epilogue _)), t) => parts mode t
  | (.error failure, _) => .error failure
termination_by r.size
decreasing_by
  all_goals
    have delivers := nextEvent_delivers mode r
    rw [_event] at delivers
    have lt := delivers.1
  · have le := readAll_remaining mode t
    rw [_content] at le
    have le : u.remaining ≤ t.remaining := le
    have total := size_eq u
    split at total <;> omega
  · exact lt
  · exact lt

/-- The form that a body holds. -/
def form (mode : Mode) (r : Reader σ) : Except Failure Form :=
  (r.parts mode).map (Form.ofParts r.charset)

end Reader

end HttpForms.Multipart
