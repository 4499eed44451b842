import HttpForms.Multipart.Reader.Content

/-!
# The content of a section

Content is read portion by portion, or all that is left of it at once. A section is also a source of
its own, so a body that is nested in a section is read by a reader of that section. On that way a
failure of the outer body becomes an error of the source of the inner one.

Results:

1. `drain_remaining` — what is drained leaves less to be read;
2. `poll_cost_le` — as a source a section uses up what its reader can still read.
-/

namespace HttpForms.Multipart

/-- The failure that is reported when a whole section is read. A polled section is read through its
stream, and what the stream carries is taken out again. -/
def Mode.report : Mode → Failure → Failure
  | .blocking, failure => failure
  | .polled, failure => .ofStream failure.toStream

/-- What reading to the end gives. -/
structure Content where
  /-- The octets that came. -/
  bytes : Bytes
  /-- What kept more from coming. -/
  failure : Option Failure
  deriving DecidableEq, Repr

namespace Reader

variable {σ : Type} [ByteSource σ]

/-- How many octets are asked for at a time when all are wanted. -/
def portion : Nat := 1024

/-- Reads what is left of the section at hand. -/
def drain (mode : Mode) (r : Reader σ) : Content × Reader σ :=
  match _read : r.read mode portion with
  | (.ok [], t) => (⟨[], none⟩, t)
  | (.ok (b :: bytes), t) =>
    let (rest, u) := drain mode t
    (⟨b :: bytes ++ rest.bytes, rest.failure⟩, u)
  | (.error failure, t) => (⟨[], some failure⟩, t)
termination_by r.remaining
decreasing_by
  have le := read_remaining mode r portion
  rw [_read] at le
  simp only [taken, List.length_cons] at le
  omega

theorem drain_remaining (mode : Mode) (r : Reader σ) :
    (r.drain mode).1.bytes.length + (r.drain mode).2.remaining ≤ r.remaining := by
  fun_induction drain mode r with
  | case1 r t read =>
    have le := read_remaining mode r portion
    rw [read] at le
    exact le
  | case2 r b bytes t read rest u drained ih =>
    have le := read_remaining mode r portion
    rw [read] at le
    rw [drained] at ih
    simp only [taken, List.length_append] at le ih ⊢
    omega
  | case3 r failure t read =>
    have le := read_remaining mode r portion
    rw [read] at le
    exact le

/-- All that is left of the section. -/
def readAll (mode : Mode) (r : Reader σ) : Except Failure Bytes × Reader σ :=
  let (content, t) := r.drain mode
  match content.failure with
  | none => (.ok content.bytes, t)
  | some failure => (.error (mode.report failure), t)

/-- All that is left of the section, as text. -/
def readText (mode : Mode) (r : Reader σ) : Except Failure String × Reader σ :=
  let (bytes, t) := r.readAll mode
  (bytes.map r.charset.decode, t)

/-- Passes over what is left of the section. -/
def skip (mode : Mode) (r : Reader σ) : Except Failure Unit × Reader σ :=
  let (bytes, t) := r.readAll mode
  (bytes.map fun _ => (), t)

/-- The octets that a stream of the section gives up to its end, and their number or the error that
ended it. -/
def readToEnd (mode : Mode) (r : Reader σ) : (Bytes × Except StreamError Nat) × Reader σ :=
  let (content, t) := r.drain mode
  match content.failure with
  | none => ((content.bytes, .ok content.bytes.length), t)
  | some failure => ((content.bytes, .error failure.toStream), t)

/-- At most `room` octets of a stream of the section. -/
def readSome (mode : Mode) (r : Reader σ) (room : Nat) : Except StreamError Bytes × Reader σ :=
  let (bytes, t) := r.read mode room
  (bytes.mapError Failure.toStream, t)

section SectionLemmas

variable (mode : Mode) (r : Reader σ)

theorem readAll_snd : (r.readAll mode).2 = (r.drain mode).2 := by
  unfold readAll
  rcases r.drain mode with ⟨⟨bytes, _ | _⟩, t⟩ <;> rfl

theorem readToEnd_snd : (r.readToEnd mode).2 = (r.drain mode).2 := by
  unfold readToEnd
  rcases r.drain mode with ⟨⟨bytes, _ | _⟩, t⟩ <;> rfl

theorem readAll_remaining : (r.readAll mode).2.remaining ≤ r.remaining := by
  have le := drain_remaining mode r
  rw [readAll_snd]
  omega

theorem readToEnd_remaining : (r.readToEnd mode).2.remaining ≤ r.remaining := by
  have le := drain_remaining mode r
  rw [readToEnd_snd]
  omega

theorem readSome_remaining (room : Nat) : (r.readSome mode room).2.remaining ≤ r.remaining := by
  have le := read_remaining mode r room
  simp only [readSome]
  omega

end SectionLemmas

end Reader

/-! ## Sections as sources -/

/-- The content of the section at hand of a reader, as a source. -/
structure Section (mode : Mode) (σ : Type) where
  reader : Reader σ

namespace Section

variable {mode : Mode} {σ : Type} [ByteSource σ]

/-- Asks the reader for content. -/
def poll (s : Section mode σ) (room : Nat) : Poll × Section mode σ :=
  match s.reader.poll mode room with
  | (.pending, t) => (.pending, ⟨t⟩)
  | (.ready (.ok bytes), t) => (.data bytes, ⟨t⟩)
  | (.ready (.error failure), t) => (.failed failure.toStream, ⟨t⟩)

theorem poll_cost_le (s : Section mode σ) (room : Nat) :
    (s.poll room).1.cost + (s.poll room).2.reader.remaining ≤ s.reader.remaining := by
  have polls := Reader.poll_remaining mode s.reader room
  unfold poll
  rcases polled : s.reader.poll mode room with ⟨_ | _ | _, t⟩ <;> rw [polled] at polls
  · have lt : t.remaining < s.reader.remaining := polls
    simp only [Poll.cost]
    omega
  · exact polls
  · exact polls

instance : ByteSource (Section mode σ) where
  poll := poll
  size s := s.reader.remaining
  cost_le := poll_cost_le

end Section

end HttpForms.Multipart
