import HttpForms.Multipart.ContentType
import HttpForms.Multipart.Scanner.Progress
import HttpForms.Multipart.Source

/-!
# Readers

A reader drives a scanner from a source: whenever the scanner asks for input, the reader asks the
source. There are two ways to wait for a source that has nothing yet. A blocking reader asks until
there is an answer. A polled reader hands the waiting on to its caller, and when it is asked again it
resumes where it stopped.

That a reader comes to an end is seen from three sums: `remaining` goes down with what is read,
`size` with every event as well, and `backlog` with every answer of the source.

Result: `remaining_of_new` — a new reader can read what its source gives and no more.
-/

namespace HttpForms.Multipart

/-- How a reader waits for a source that has nothing yet. -/
inductive Mode
  /-- It asks again at once. -/
  | blocking
  /-- It tells its caller to ask again. -/
  | polled
  deriving DecidableEq, Repr

/-- An answer that may have to be waited for. -/
inductive Polled (α : Type)
  | pending
  | ready (value : α)
  deriving DecidableEq, Repr

/-- A scanner and the source that feeds it. -/
structure Reader (σ : Type) where
  source : σ
  scanner : Scanner
  /-- How many octets the source is asked for. -/
  chunkSize : Nat

namespace Reader

variable {σ : Type}

/-- A reader of a body with a boundary. -/
def new (source : σ) (boundary : String) (charset : Charset) (limits : Limits) :
    Except Failure (Reader σ) :=
  (Scanner.ofText boundary charset limits).map fun scanner => ⟨source, scanner, limits.chunkSize⟩

/-- A reader of a body whose boundary stands in its media type. -/
def ofContentType (source : σ) (contentType : String) (charset : Charset) :
    Except Failure (Reader σ) :=
  match ContentType.boundary? contentType with
  | some boundary => new source boundary charset .default
  | none => .error (.invalidBoundary contentType)

/-- The charset of headers and text. -/
def charset (r : Reader σ) : Charset :=
  r.scanner.charset

/-- Hands an answer of the source to the scanner. No octets mean the end. -/
def absorb (r : Reader σ) (source : σ) (bytes : Bytes) : Reader σ :=
  { r with
    source := source
    scanner := if bytes.isEmpty then r.scanner.finish else r.scanner.feed bytes }

/-- Stops the scanner because the source failed. -/
def stop (r : Reader σ) (source : σ) (error : StreamError) : Reader σ :=
  { r with source := source, scanner := (r.scanner.abort (.source error)).2 }

variable [ByteSource σ]

/-! ## What is left -/

/-- What can still be read: the rest of the source and what waits in the buffer. -/
def remaining (r : Reader σ) : Nat :=
  ByteSource.size r.source + r.scanner.buffer.bytes.length

/-- What can still be used up: what can be read, and the last event. -/
def size (r : Reader σ) : Nat :=
  ByteSource.size r.source + r.scanner.weight

/-- What is left to be asked of the source. -/
def backlog (r : Reader σ) : Nat :=
  ByteSource.size r.source + if r.scanner.ended then 0 else 1

theorem size_eq (r : Reader σ) :
    r.size = r.remaining + if r.scanner.phase.isLive then 1 else 0 := by
  simp only [size, remaining, Scanner.weight]
  omega

/-- A new reader has nothing in its buffer. -/
theorem remaining_of_new {source : σ} {boundary : String} {charset : Charset} {limits : Limits}
    {r : Reader σ} (made : new source boundary charset limits = .ok r) :
    r.remaining = ByteSource.size source := by
  unfold new Scanner.ofText at made
  rcases valid : Boundary.ofString boundary with failure | b <;> rw [valid] at made
  · simp [Except.map] at made
  · simp only [Except.map, Except.ok.injEq] at made
    subst made
    rfl

theorem remaining_of_ofContentType {source : σ} {contentType : String} {charset : Charset}
    {r : Reader σ} (made : ofContentType source contentType charset = .ok r) :
    r.remaining = ByteSource.size source := by
  unfold ofContentType at made
  split at made
  · exact remaining_of_new made
  · simp at made

end Reader

end HttpForms.Multipart
