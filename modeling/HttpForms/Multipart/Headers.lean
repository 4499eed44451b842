import HttpForms.Multipart.Disposition

/-!
# Section headers

Headers stand in document order, and a name may stand several times; its last value counts. A block
of lines is read leniently: a line without a colon or without a name is skipped.
-/

namespace HttpForms.Multipart

/-- The headers of a section. -/
structure Headers where
  entries : List (String × String)
  deriving DecidableEq, Repr

namespace Headers

/-- No headers. -/
def empty : Headers := ⟨[]⟩

/-- Adds a header at the end. -/
def append (h : Headers) (name value : String) : Headers :=
  ⟨h.entries ++ [(name, value)]⟩

/-- All values of a name in order, in any case of ASCII letters. -/
def getAll (h : Headers) (name : String) : List String :=
  (h.entries.filter fun entry => Text.sameAscii entry.1 name).map Prod.snd

/-- The last value of a name. -/
def get? (h : Headers) (name : String) : Option String :=
  (h.getAll name).getLast?

/-- Whether a name has a value. -/
def contains (h : Headers) (name : String) : Bool :=
  (h.get? name).isSome

/-- The parsed disposition, if there is a well-formed one. -/
def disposition (h : Headers) : Option Disposition :=
  (h.get? "Content-Disposition").bind Disposition.ofString?

/-- The media type of the section. -/
def contentType (h : Headers) : Option String :=
  h.get? "Content-Type"

/-- The name of the form field. -/
def fieldName (h : Headers) : Option String :=
  h.disposition.bind Disposition.name

/-- The name of the uploaded file. -/
def filename (h : Headers) : Option String :=
  h.disposition.bind Disposition.filename

/-! ## Reading a block -/

/-- A line without the carriage return at its end. -/
def stripReturn (line : Bytes) : Bytes :=
  if line.getLast? == some Bytes.cr then line.dropLast else line

/-- The lines of a block. -/
def lines (block : Bytes) : List Bytes :=
  (block.splitOn Bytes.lf).map stripReturn

/-- The octets of the name and of the value that a line gives. -/
def splitLine (line : Bytes) : Option (Bytes × Bytes) :=
  (cut? 0x3A line).filter fun (name, _) => !name.all Bytes.isAsciiBlank

/-- Reads one line. -/
def readLine (charset : Charset) (line : Bytes) : Option (String × String) :=
  (splitLine line).map fun (name, value) =>
    (Text.trim (charset.decode name), Text.trim (charset.decode value))

/-- Reads a block of lines. -/
def parse (charset : Charset) (block : Bytes) : Headers :=
  ⟨(lines block).filterMap (readLine charset)⟩

example : (parse .utf8 (Utf8.encode "A: 1\r\nbad\r\n : 2\na:3")).entries =
    [("A", "1"), ("a", "3")] := by decide +kernel

end Headers

end HttpForms.Multipart
