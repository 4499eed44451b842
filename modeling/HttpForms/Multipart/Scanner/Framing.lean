import HttpForms.Multipart.Marker
import HttpForms.Multipart.Scanner.Basic

/-!
# What frames the sections

Before the first boundary line stands the preamble, behind every other one the headers of a section,
and behind the closing one the epilogue. Preamble and epilogue are held until they are complete;
headers are bounded in length, so a body cannot make a scanner hold more than its limit of them.
-/

namespace HttpForms.Multipart.Scanner

/-! ## Behind a boundary line -/

/-- The end of a block of headers: a line break and a blank line. -/
def headerEnd : Bytes := Bytes.crlf ++ Bytes.crlf

/-- Reads the headers of a section. A blank line at once means that there are none. -/
def nextHeaders (s : Scanner) : Except Failure Step × Scanner :=
  if Bytes.crlf.isPrefixOf s.buffer.bytes then
    (.ok (.opened .empty), s.enter .body Bytes.crlf.length)
  else if s.buffer.bytes.length < Bytes.crlf.length then s.await .needInput .unterminatedHeaders
  else
    match s.buffer.find headerEnd with
    | (.found place, buffer) =>
      if s.headerLimit < place + headerEnd.length then
        { s with buffer := buffer }.fail (.headersTooLarge s.headerLimit)
      else
        (.ok (.opened (Headers.parse s.charset (buffer.split place).1)),
          { s with buffer := buffer }.enter .body (place + headerEnd.length))
    | (.absent _, buffer) =>
      if s.headerLimit < buffer.bytes.length then
        { s with buffer := buffer }.fail (.headersTooLarge s.headerLimit)
      else { s with buffer := buffer }.await .needInput .unterminatedHeaders

/-- Reads the epilogue, which ends with the input. -/
def nextEpilogue (s : Scanner) (held : Bytes) : Except Failure Step × Scanner :=
  let (rest, buffer) := s.buffer.split s.buffer.bytes.length
  if s.ended then
    (.ok (.epilogue (held ++ rest)), { s with buffer := buffer }.enter .done 0)
  else (.ok .needInput, { s with phase := .epilogue (held ++ rest), buffer := buffer })

/-- Takes away the break after the closing boundary, if there is one, and reads the epilogue. -/
def nextClosed (s : Scanner) : Except Failure Step × Scanner :=
  if s.buffer.bytes.length < Bytes.crlf.length && !s.ended then (.ok .needInput, s)
  else
    let n := if Bytes.crlf.isPrefixOf s.buffer.bytes then Bytes.crlf.length else 0
    (s.enter (.epilogue []) n).nextEpilogue []

/-! ## Before the first boundary line -/

/-- The next place where a boundary line may stand. -/
inductive Candidate
  /-- There is none, and none can begin among the first `safe` octets. -/
  | absent (safe : Nat)
  /-- More input decides about this place. -/
  | undecided (place : Nat)
  /-- The line at this place opens a section behind `length` octets. -/
  | opens (place length : Nat)
  /-- The line at this place closes the body behind `length` octets. -/
  | closes (place length : Nat)
  deriving DecidableEq, Repr

/-- Looks for a boundary line and passes over all that only look like one. -/
def seekLine (boundary : Boundary) (b : SearchBuffer) : Candidate × SearchBuffer :=
  match _search : b.find boundary.delimiter with
  | (.absent safe, b') => (.absent safe, b')
  | (.found place, b') =>
    match Marker.classify (b'.bytes.drop (place + boundary.delimiter.length)) with
    | .absent => seekLine boundary (b'.reject place)
    | .undecided => (.undecided place, b')
    | .opens length => (.opens place (boundary.delimiter.length + length), b')
    | .closes => (.closes place (boundary.delimiter.length + Marker.closing.length), b')
termination_by b.bytes.length - b.scanned
decreasing_by
  have solid : boundary.delimiter ≠ [] := by simp [Boundary.delimiter]
  have le := SearchBuffer.find_found_le _search solid
  obtain ⟨rfl, le', -⟩ := SearchBuffer.find_found _search
  have := List.length_pos_iff.2 solid
  simp only [SearchBuffer.reject]
  omega

/-- Reads the preamble up to the first boundary line. -/
def nextPreamble (s : Scanner) (held : Bytes) : Except Failure Step × Scanner :=
  match seekLine s.boundary s.buffer with
  | (.absent safe, buffer) =>
    let (released, buffer) := buffer.split safe
    { s with phase := .preamble (held ++ released), buffer := buffer }.await
      .needInput .unterminatedPreamble
  | (.undecided _, buffer) =>
    { s with phase := .preamble held, buffer := buffer }.await .needInput .unterminatedPreamble
  | (.opens place length, buffer) =>
    (.ok (.preamble (held ++ (buffer.split place).1)),
      { s with buffer := buffer }.enter .headers (place + length))
  | (.closes place length, buffer) =>
    (.ok (.preamble (held ++ (buffer.split place).1)),
      { s with buffer := buffer }.enter .closed (place + length))

/-- Looks whether the body opens with a boundary; the preamble is empty then. -/
def nextStart (s : Scanner) : Except Failure Step × Scanner :=
  if s.buffer.bytes.length < s.boundary.dashed.length && !s.ended then (.ok .needInput, s)
  else if !s.boundary.dashed.isPrefixOf s.buffer.bytes then
    (s.enter (.preamble []) 0).nextPreamble []
  else
    match Marker.classify (s.buffer.bytes.drop s.boundary.dashed.length) with
    | .opens length => (.ok (.preamble []), s.enter .headers (s.boundary.dashed.length + length))
    | .closes =>
      (.ok (.preamble []), s.enter .closed (s.boundary.dashed.length + Marker.closing.length))
    | .undecided => s.await .needInput .unterminatedPreamble
    | .absent => (s.enter (.preamble []) 0).nextPreamble []

end HttpForms.Multipart.Scanner
