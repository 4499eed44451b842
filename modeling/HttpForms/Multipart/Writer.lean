import HttpForms.Multipart.Boundary
import HttpForms.Multipart.Part
import HttpForms.Multipart.Sink

/-!
# Writers

A writer collects parts and writes them as a body. A body that would not be read back as it was
given is refused before anything is written: no content may hold a delimiter, and no header a line
break.

Results:

1. `toBytes_eq_ok_iff` — a body is written exactly when nothing refuses it, and then as its chunks;
2. `writeTo_refused` — a sink is offered nothing of a body that is refused.
-/

namespace HttpForms.Multipart

/-- Why a body is not written. -/
inductive Refusal
  /-- The preamble holds a boundary line. -/
  | preamble (boundary : String)
  /-- The content of a part holds a delimiter. -/
  | content (boundary : String)
  /-- There is a line break in the header of this name. -/
  | header (name : String)
  deriving DecidableEq, Repr

/-- The wording of a refusal. -/
def Refusal.message : Refusal → String
  | .preamble boundary => "preamble contains boundary " ++ Text.quoted boundary
  | .content boundary => "part content contains boundary " ++ Text.quoted boundary
  | .header name => "line break in header " ++ Text.quoted name

/-- A refusal as an error of the stream that was to be written. -/
def Refusal.toStream (r : Refusal) : StreamError :=
  .described .invalidInput r.message

/-- A body that is being put together. -/
structure Writer where
  boundary : Boundary
  /-- What stands behind `multipart/` in the media type. -/
  subtype : String
  preamble : Option Bytes
  epilogue : Option Bytes
  parts : List Part
  deriving DecidableEq, Repr

namespace Writer

/-- A form without parts. -/
def new (boundary : Boundary) : Writer :=
  ⟨boundary, "form-data", none, none, []⟩

def withSubtype (w : Writer) (subtype : String) : Writer :=
  { w with subtype := subtype }

def withPreamble (w : Writer) (preamble : Bytes) : Writer :=
  { w with preamble := some preamble }

def withEpilogue (w : Writer) (epilogue : Bytes) : Writer :=
  { w with epilogue := some epilogue }

/-- The media type of the body, with its boundary. -/
def contentType (w : Writer) : String :=
  "multipart/" ++ w.subtype ++ "; boundary=\"" ++ w.boundary.text ++ "\""

/-! ## Parts -/

/-- Adds a part at the end. -/
def addPart (w : Writer) (part : Part) : Writer :=
  { w with parts := w.parts ++ [part] }

/-- The disposition of a field. -/
def fieldDisposition (name : String) : String :=
  "form-data; name=" ++ ParameterList.quote name

/-- The disposition of a file. A name outside ASCII is written once more in the extended form, which
keeps all of its characters. -/
def fileDisposition (name filename : String) : String :=
  let plain := fieldDisposition name ++ "; filename=" ++ ParameterList.quote filename
  if filename.toList.all (·.toNat < 0x80) then plain
  else
    plain ++ "; filename*=UTF-8''" ++
      String.ofList (Percent.encode Percent.isAlphanumeric filename.toList)

/-- The media type of a file when none is given. -/
def defaultFileType : String := "application/octet-stream"

/-- Adds a field of a form. -/
def addField (w : Writer) (name value : String) : Writer :=
  w.addPart ⟨⟨[("Content-Disposition", fieldDisposition name)]⟩, Utf8.encode value⟩

/-- Adds a file of a form. -/
def addFile (w : Writer) (name filename : String) (contentType : Option String)
    (contents : Bytes) : Writer :=
  w.addPart ⟨⟨[("Content-Disposition", fileDisposition name filename),
    ("Content-Type", contentType.getD defaultFileType)]⟩, contents⟩

/-! ## Refusals -/

/-- Whether there is a line break in a text. -/
def hasLineBreak (text : String) : Bool :=
  text.toList.any fun c => c == '\r' || c == '\n'

/-- What a boundary refuses in a preamble: itself at the front, or a delimiter anywhere. -/
def refusalOfPreamble (boundary : Boundary) (preamble : Bytes) : Option Refusal :=
  if boundary.dashed.isPrefixOf preamble || Bytes.occursIn boundary.delimiter preamble then
    some (.preamble boundary.text)
  else none

/-- What a boundary refuses in a part. -/
def refusalOfPart (boundary : Boundary) (part : Part) : Option Refusal :=
  if Bytes.occursIn boundary.delimiter part.content then some (.content boundary.text)
  else
    (part.headers.entries.find? fun (name, value) => hasLineBreak name || hasLineBreak value).map
      fun (name, _) => .header name

/-- The first thing in the body that is refused. -/
def refusal? (w : Writer) : Option Refusal :=
  (w.preamble.bind (refusalOfPreamble w.boundary)).or
    (w.parts.findSome? (refusalOfPart w.boundary))

/-! ## Writing -/

/-- What separates the name of a header from its value. -/
def headerColon : Bytes := [0x3A, 0x20]

/-- What makes a boundary line the closing one. -/
def closingLine : Bytes := Bytes.hyphen :: Bytes.hyphen :: Bytes.crlf

/-- The line of a header. -/
def headerChunks (header : String × String) : List Bytes :=
  [Utf8.encode header.1, headerColon, Utf8.encode header.2, Bytes.crlf]

/-- A part behind its boundary line. -/
def partChunks (boundary : Boundary) (part : Part) : List Bytes :=
  [boundary.dashed, Bytes.crlf] ++ part.headers.entries.flatMap headerChunks ++
    [Bytes.crlf, part.content, Bytes.crlf]

/-- The pieces in which the body is written. -/
def chunks (w : Writer) : List Bytes :=
  (match w.preamble with
    | some preamble => [preamble, Bytes.crlf]
    | none => []) ++
  w.parts.flatMap (partChunks w.boundary) ++ [w.boundary.dashed, closingLine] ++
  w.epilogue.toList

/-- The body. -/
def toBytes (w : Writer) : Except Refusal Bytes :=
  match w.refusal? with
  | some refusal => .error refusal
  | none => .ok w.chunks.flatten

/-- Writes the body to a sink. -/
def writeTo {τ : Type} [ByteSink τ] (w : Writer) (sink : τ) : Except Refusal Delivery × τ :=
  match w.refusal? with
  | some refusal => (.error refusal, sink)
  | none =>
    let (delivery, t) := ByteSink.putAll sink w.chunks
    (.ok delivery, t)

theorem toBytes_eq_ok_iff {w : Writer} {bytes : Bytes} :
    w.toBytes = .ok bytes ↔ w.refusal? = none ∧ bytes = w.chunks.flatten := by
  unfold toBytes
  rcases w.refusal? with _ | refusal <;> simp [eq_comm]

theorem writeTo_refused {τ : Type} [ByteSink τ] {w : Writer} {refusal : Refusal} (sink : τ)
    (refused : w.refusal? = some refusal) : w.writeTo sink = (.error refusal, sink) := by
  simp [writeTo, refused]

end Writer

end HttpForms.Multipart
