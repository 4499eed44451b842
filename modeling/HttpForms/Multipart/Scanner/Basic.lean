import HttpForms.Multipart.Boundary
import HttpForms.Multipart.Headers
import HttpForms.Multipart.Limits
import HttpForms.Multipart.SearchBuffer

/-!
# The scanner

A scanner takes a body apart that arrives in pieces of any size. It never reads by itself: input is
fed to it, and it answers either with the next step of the body or that it needs more. Content of a
section is given away as soon as it cannot be part of a delimiter, so what is held back is never more
than a delimiter and an undecided marker.

The phases follow each other as

`start → preamble → headers → body → (headers | closed) → epilogue → done`

and every failure leads to `failed`, which keeps its cause for whoever asks again.
-/

namespace HttpForms.Multipart

/-- Where in a body a scanner is. -/
inductive Phase
  /-- Nothing is read; the body may open with a boundary at once. -/
  | start
  /-- Before the first boundary line; `held` is the preamble so far. -/
  | preamble (held : Bytes)
  /-- Behind the boundary line that opens a section. -/
  | headers
  /-- In the content of a section. -/
  | body
  /-- Behind the closing boundary, before the break that ends its line. -/
  | closed
  /-- Behind the closing boundary line; `held` is the epilogue so far. -/
  | epilogue (held : Bytes)
  /-- All is read. -/
  | done
  /-- Reading stopped, for this cause. -/
  | failed (cause : Failure)
  deriving DecidableEq, Repr

/-- A step of a body. -/
inductive Step
  | needInput
  /-- All that stands before the first boundary line. -/
  | preamble (bytes : Bytes)
  /-- A section begins; its content can be read. -/
  | opened (headers : Headers)
  /-- All that stands behind the closing boundary line. -/
  | epilogue (bytes : Bytes)
  | done
  deriving DecidableEq, Repr

/-- A part of the content of a section. -/
inductive Portion
  | needInput
  | data (bytes : Bytes)
  /-- The section has no more content. -/
  | finished
  deriving DecidableEq, Repr

/-- The content that is given away. -/
def Portion.bytes : Portion → Bytes
  | .data bytes => bytes
  | _ => []

/-- What a scanner knows of a body. -/
structure Scanner where
  boundary : Boundary
  charset : Charset
  headerLimit : Nat
  phase : Phase
  buffer : SearchBuffer
  /-- Whether the input has ended. -/
  ended : Bool
  deriving DecidableEq, Repr

namespace Scanner

/-- A scanner that has read nothing. -/
def new (boundary : Boundary) (charset : Charset) (limits : Limits) : Scanner :=
  ⟨boundary, charset, limits.headerLimit, .start, .empty, false⟩

/-- A scanner for a text that has to be a boundary. -/
def ofText (boundary : String) (charset : Charset) (limits : Limits) : Except Failure Scanner :=
  (Boundary.ofString boundary).map fun boundary => new boundary charset limits

/-! ## Input -/

/-- Adds input. After the end nothing is added any more. -/
def feed (s : Scanner) (chunk : Bytes) : Scanner :=
  if s.ended then s else { s with buffer := s.buffer.extend chunk }

/-- Ends the input. -/
def finish (s : Scanner) : Scanner :=
  { s with ended := true }

/-- Stops reading because the source failed. -/
def abort (s : Scanner) (failure : Failure) : Failure × Scanner :=
  (failure, { s with phase := .failed failure.replay })

/-- Whether the content of a section is being read. -/
def inBody (s : Scanner) : Bool :=
  s.phase == .body

/-! ## Transitions -/

/-- Stops reading because of the shape of the body. -/
def fail {α : Type} (s : Scanner) (failure : Failure) : Except Failure α × Scanner :=
  (.error failure, { s with phase := .failed failure.replay })

/-- Goes on to another phase behind the first `n` octets. -/
def enter (s : Scanner) (phase : Phase) (n : Nat) : Scanner :=
  { s with phase := phase, buffer := (s.buffer.discard n).restart }

/-- Asks for more, unless there is no more. -/
def await {α : Type} (s : Scanner) (more : α) (failure : Failure) : Except Failure α × Scanner :=
  if s.ended then s.fail failure else (.ok more, s)

end Scanner

end HttpForms.Multipart
