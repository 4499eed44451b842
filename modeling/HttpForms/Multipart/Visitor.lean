import HttpForms.Multipart.Reader.Events
import HttpForms.Multipart.Section

/-!
# Visiting sections

A body is read from event to event, and what is done with a section is up to a visitor. The record of
that is a list of entries: one for every event, every failure and every time the body turned out to
be over. A visitor may read the section as a body of its own; its record is then part of the outer
one.

Result: `transcript_remaining` — reading a body to its end uses up no more than there was.
-/

namespace HttpForms.Multipart

mutual

/-- An entry of the record of a body. -/
inductive Entry
  | preamble (bytes : Bytes)
  /-- A section, and what came of visiting it. -/
  | opened (headers : Headers) (outcomes : List Outcome)
  | epilogue (bytes : Bytes)
  | failed (failure : Failure)
  /-- There was no further event. -/
  | over

/-- What came of reading from a section. -/
inductive Outcome
  | all (result : Except Failure Bytes)
  | text (result : Except Failure String)
  | portion (result : Except StreamError Bytes)
  | toEnd (bytes : Bytes) (result : Except StreamError Nat)
  | skipped (result : Except Failure Unit)
  /-- The record of the body in the section. -/
  | nested (entries : List Entry)
  /-- The section cannot hold a body. -/
  | refused (failure : Failure)

end

/-- Something that is done with a section. It leaves no more to be read than there was. -/
structure Visitor where
  visit : {σ : Type} → [ByteSource σ] → Headers → Reader σ → List Outcome × Reader σ
  remaining_le : ∀ {σ : Type} [ByteSource σ] (headers : Headers) (r : Reader σ),
    (visit headers r).2.remaining ≤ r.remaining

namespace Visitor

/-- Leaves the section unread. -/
def ignore : Visitor where
  visit _ r := ([], r)
  remaining_le _ _ := Nat.le_refl _

/-- One visit after the other. -/
def followedBy (v w : Visitor) : Visitor where
  visit headers r :=
    let (outcomes, t) := v.visit headers r
    let (more, u) := w.visit headers t
    (outcomes ++ more, u)
  remaining_le headers r := Nat.le_trans (w.remaining_le headers _) (v.remaining_le headers r)

/-- Reads the section to its end. -/
def all (mode : Mode) : Visitor where
  visit _ r :=
    let (result, t) := r.readAll mode
    ([.all result], t)
  remaining_le _ r := Reader.readAll_remaining mode r

/-- Reads the section to its end, as text. -/
def text (mode : Mode) : Visitor where
  visit _ r :=
    let (result, t) := r.readText mode
    ([.text result], t)
  remaining_le _ r := Reader.readAll_remaining mode r

/-- Reads at most so many octets. -/
def portion (mode : Mode) (room : Nat) : Visitor where
  visit _ r :=
    let (result, t) := r.readSome mode room
    ([.portion result], t)
  remaining_le _ r := Reader.readSome_remaining mode r room

/-- Reads the stream of the section to its end. -/
def toEnd (mode : Mode) : Visitor where
  visit _ r :=
    let ((bytes, result), t) := r.readToEnd mode
    ([.toEnd bytes result], t)
  remaining_le _ r := Reader.readToEnd_remaining mode r

/-- Passes over the section. -/
def skip (mode : Mode) : Visitor where
  visit _ r :=
    let (result, t) := r.skip mode
    ([.skipped result], t)
  remaining_le _ r := Reader.readAll_remaining mode r

end Visitor

/-- Visitors for the sections of a body in turn. The last one visits all further sections. -/
structure Visitors where
  first : Visitor
  later : List Visitor

/-- The visitors for the sections after the next one. -/
def Visitors.next (vs : Visitors) : Visitors :=
  match vs.later with
  | [] => vs
  | v :: later => ⟨v, later⟩

namespace Reader

variable {σ : Type} [ByteSource σ]

/-- The record of a body: asks for events until so many times there was none. -/
def transcript (mode : Mode) (vs : Visitors) (times : Nat) (r : Reader σ) :
    List Entry × Reader σ :=
  match times with
  | 0 => ([], r)
  | times + 1 =>
    match _event : r.nextEvent mode with
    | (.ok (some (.preamble bytes)), t) =>
      let (entries, u) := transcript mode vs (times + 1) t
      (.preamble bytes :: entries, u)
    | (.ok (some (.epilogue bytes)), t) =>
      let (entries, u) := transcript mode vs (times + 1) t
      (.epilogue bytes :: entries, u)
    | (.ok (some (.opened headers)), t) =>
      let visited := vs.first.visit headers t
      let (entries, u) := transcript mode vs.next (times + 1) visited.2
      (.opened headers visited.1 :: entries, u)
    | (.ok none, t) =>
      let (entries, u) := transcript mode vs times t
      (.over :: entries, u)
    | (.error failure, t) =>
      let (entries, u) := transcript mode vs (times + 1) t
      (.failed failure :: entries, u)
termination_by r.size + times
decreasing_by
  all_goals
    have delivers := nextEvent_delivers mode r
    rw [_event] at delivers
    have lt := delivers.1
  · exact Nat.add_lt_add_right lt _
  · exact Nat.add_lt_add_right lt _
  · have le := vs.first.remaining_le headers t
    have total := size_eq (vs.first.visit headers t).2
    split at total <;> omega
  · omega
  · exact Nat.add_lt_add_right lt _

theorem transcript_remaining (mode : Mode) (vs : Visitors) (times : Nat) (r : Reader σ) :
    (r.transcript mode vs times).2.remaining ≤ r.remaining := by
  fun_induction transcript mode vs times r with
  | case1 => exact Nat.le_refl _
  | case4 vs r times headers t event visited entries u rest ih =>
    have delivers := nextEvent_delivers mode r
    rw [event] at delivers
    rw [rest] at ih
    exact Nat.le_trans ih (Nat.le_trans (vs.first.remaining_le headers t) delivers.2)
  | case2 vs r times bytes t event entries u rest ih
  | case3 vs r times bytes t event entries u rest ih
  | case5 vs r times t event entries u rest ih
  | case6 vs r times failure t event entries u rest ih =>
    have delivers := nextEvent_delivers mode r
    rw [event] at delivers
    rw [rest] at ih
    exact Nat.le_trans ih delivers.2

end Reader

/-- Reads the section as a body of its own, with the boundary that its media type gives. -/
def Visitor.nested (mode : Mode) (vs : Visitors) (times : Nat) : Visitor where
  visit {σ} _ headers r :=
    let source : Section mode σ := ⟨r⟩
    match Reader.ofContentType source (headers.contentType.getD "") r.charset with
    | .error failure => ([.refused failure], r)
    | .ok inner =>
      let (entries, t) := inner.transcript mode vs times
      ([.nested entries], t.source.reader)
  remaining_le {σ} _ headers r := by
    simp only
    split
    · exact Nat.le_refl _
    · rename_i inner made
      have le := Reader.transcript_remaining mode vs times inner
      rw [Reader.remaining_of_ofContentType made] at le
      exact Nat.le_trans (Nat.le_add_right _ _) le

end HttpForms.Multipart
