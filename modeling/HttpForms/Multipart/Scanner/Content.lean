import HttpForms.Multipart.Scanner.Framing

/-!
# The content of sections

Content goes on up to the next boundary line. Whatever cannot be part of one is given away at once,
so a section may be of any length. Asked for the next step, a scanner passes over what is left of the
section at hand.

Result: `available_content` — content that is given away is a non-empty front of the buffer.
-/

namespace HttpForms.Multipart.Scanner

/-! ## The front of the buffer -/

/-- What the front of the buffer is, in the content of a section. -/
inductive Front
  | needInput
  /-- This many octets are content. -/
  | content (length : Nat)
  /-- The boundary line of another section stood here. -/
  | opens
  /-- The closing boundary line stood here. -/
  | closes
  deriving DecidableEq, Repr

/-- Looks at the front of the buffer and takes a boundary line away that stands there. A place that
only looks like one is content, and the search goes on behind its first octet. -/
def available (s : Scanner) : Except Failure Front × Scanner :=
  match s.buffer.find s.boundary.delimiter with
  | (.found 0, buffer) =>
    match Marker.classify (buffer.bytes.drop s.boundary.delimiter.length) with
    | .opens length =>
      (.ok .opens,
        { s with buffer := buffer }.enter .headers (s.boundary.delimiter.length + length))
    | .closes =>
      (.ok .closes, { s with buffer := buffer }.enter .closed
        (s.boundary.delimiter.length + Marker.closing.length))
    | .undecided => { s with buffer := buffer }.await .needInput .unterminatedBody
    | .absent =>
      let (search, buffer) := (buffer.reject 0).find s.boundary.delimiter
      (.ok (.content search.reached), { s with buffer := buffer })
  | (.absent 0, buffer) => { s with buffer := buffer }.await .needInput .unterminatedBody
  | (search, buffer) => (.ok (.content search.reached), { s with buffer := buffer })

section AvailableLemmas

variable {s t : Scanner} {n : Nat}

theorem await_ok {α : Type} {more got : α} {failure : Failure}
    (answer : s.await more failure = (.ok got, t)) : got = more ∧ t = s ∧ s.ended = false := by
  unfold await fail at answer
  split at answer
  · simp at answer
  · simp_all

/-- Content is never empty, begins at the front and goes as far as the search has come. -/
theorem available_content (content : s.available = (.ok (.content n), t)) :
    0 < n ∧ t.buffer = ⟨s.buffer.bytes, n⟩ ∧ (s.buffer.bytes = [] → s.buffer.scanned = n) := by
  have solid : s.boundary.delimiter ≠ [] := by simp [Boundary.delimiter]
  unfold available at content
  split at content
  · rename_i buffer front
    have nonempty : s.buffer.bytes ≠ [] := by
      intro none
      have le := SearchBuffer.find_found_le front solid
      simp [none] at le
      exact solid le
    obtain ⟨rfl, -, -⟩ := SearchBuffer.find_found front
    simp only at content
    split at content
    · simp at content
    · simp at content
    · simpa using (await_ok content).1
    · rcases again : (SearchBuffer.reject ⟨s.buffer.bytes, 0⟩ 0).find s.boundary.delimiter with
        ⟨search, buffer⟩
      obtain ⟨same, le⟩ := SearchBuffer.find_eq again
      rw [again] at content
      simp only [Prod.mk.injEq, Except.ok.injEq, Front.content.injEq] at content
      obtain ⟨rfl, rfl⟩ := content
      simp only [SearchBuffer.reject] at le
      exact ⟨by omega, same, fun none => absurd none nonempty⟩
  · simpa using (await_ok content).1
  · rename_i search buffer notFront notNone front
    obtain ⟨same, le⟩ := SearchBuffer.find_eq front
    simp only [Prod.mk.injEq, Except.ok.injEq, Front.content.injEq] at content
    obtain ⟨rfl, rfl⟩ := content
    refine ⟨Nat.pos_of_ne_zero fun zero => ?_, same,
      fun none => (SearchBuffer.find_nil front solid none).symm⟩
    cases search with
    | found place => exact notFront (by rw [show place = 0 from zero])
    | absent safe => exact notNone (by rw [show safe = 0 from zero])

end AvailableLemmas

/-! ## Steps and reads -/

/-- Passes over the rest of a section and goes on behind it. -/
def nextBody (s : Scanner) : Except Failure Step × Scanner :=
  match _front : s.available with
  | (.ok (.content n), t) => nextBody { t with buffer := t.buffer.discard n }
  | (.ok .needInput, t) => (.ok .needInput, t)
  | (.ok .opens, t) => t.nextHeaders
  | (.ok .closes, t) => t.nextClosed
  | (.error failure, t) => (.error failure, t)
termination_by s.buffer.bytes.length + s.buffer.scanned
decreasing_by
  obtain ⟨positive, buffer, unsearched⟩ := available_content _front
  simp only [SearchBuffer.discard, List.length_drop, buffer]
  by_cases none : s.buffer.bytes = []
  · have := unsearched none
    simp [none]
    omega
  · have := List.length_pos_iff.2 none
    omega

/-- The next step. What is left of a section is passed over first. -/
def next (s : Scanner) : Except Failure Step × Scanner :=
  match s.phase with
  | .start => s.nextStart
  | .preamble held => s.nextPreamble held
  | .headers => s.nextHeaders
  | .body => s.nextBody
  | .closed => s.nextClosed
  | .epilogue held => s.nextEpilogue held
  | .done | .failed _ => (.ok .done, s)

/-- Reads content of the section at hand, at most `room` octets. Outside of a section there is none,
and after a failure its cause is reported again. -/
def readBody (s : Scanner) (room : Nat) : Except Failure Portion × Scanner :=
  match s.phase with
  | .failed cause => (.error cause.replay, s)
  | .body =>
    match s.available with
    | (.ok (.content n), t) =>
      let (bytes, buffer) := t.buffer.deliver n room
      (.ok (.data bytes), { t with buffer := buffer })
    | (.ok .needInput, t) => (.ok .needInput, t)
    | (.ok .opens, t) | (.ok .closes, t) => (.ok .finished, t)
    | (.error failure, t) => (.error failure, t)
  | _ => (.ok .finished, s)

end HttpForms.Multipart.Scanner
