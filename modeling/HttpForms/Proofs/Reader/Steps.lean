import HttpForms.Multipart.Form
import HttpForms.Multipart.Plan

/-!
# The loops of a reader, turn by turn

Whatever a reader does is a loop: it asks again, waits, or goes on with what is left. Here one turn of
each of these loops is written out as an equation, so that a proof can take a turn without opening the
loop. Whatever reads a section as a whole is said by what it drains.
-/

namespace HttpForms.Multipart

/-- What is reported of content that is read as a whole. -/
def Content.result (mode : Mode) (content : Content) : Except Failure Bytes :=
  match content.failure with
  | none => .ok content.bytes
  | some failure => .error (mode.report failure)

/-- What a stream gives of content up to its end, and what it says of it. -/
def Content.streamed (content : Content) : Bytes × Except StreamError Nat :=
  match content.failure with
  | none => (content.bytes, .ok content.bytes.length)
  | some failure => (content.bytes, .error failure.toStream)

namespace Reader

variable {σ : Type} [ByteSource σ]

/-! ## The source -/

/-- One turn of asking the source. -/
theorem ask_step (mode : Mode) (r : Reader σ) :
    r.ask mode =
      match ByteSource.poll r.source r.chunkSize with
      | (.data bytes, source) => (.ready (.ok ()), r.absorb source bytes)
      | (.failed error, source) => (.ready (.error (.source error)), r.stop source error)
      | (.interrupted, source) => ask mode { r with source := source }
      | (.pending, source) =>
        match mode with
        | .blocking => ask .blocking { r with source := source }
        | .polled => (.pending, { r with source := source }) := by
  rw [ask]
  split <;> rename_i asked <;> cases mode <;> simp only [asked]

/-- Filling waits for what is asked. -/
theorem fill_step (mode : Mode) (r : Reader σ) :
    r.fill mode =
      match r.ask mode with
      | (.ready result, t) => (result, t)
      | (.pending, t) => t.fill mode := by
  rw [fill]
  split <;> simp_all

/-! ## Events and content -/

/-- One turn of asking for an event. -/
theorem nextEvent_step (mode : Mode) (r : Reader σ) :
    r.nextEvent mode =
      match r.scanner.next with
      | (.ok (.preamble bytes), s) => (.ok (some (.preamble bytes)), { r with scanner := s })
      | (.ok (.opened headers), s) => (.ok (some (.opened headers)), { r with scanner := s })
      | (.ok (.epilogue bytes), s) => (.ok (some (.epilogue bytes)), { r with scanner := s })
      | (.ok .done, s) => (.ok none, { r with scanner := s })
      | (.error failure, s) => (.error failure, { r with scanner := s })
      | (.ok .needInput, s) =>
        match fill mode { r with scanner := s } with
        | (.ok (), t) => t.nextEvent mode
        | (.error failure, t) => (.error failure, t) := by
  rw [nextEvent]
  split <;> rename_i step <;> rw [step]
  simp only
  split <;> rename_i filled <;> rw [filled]

/-- One turn of polling, where there is room. -/
theorem poll_step (mode : Mode) (r : Reader σ) {room : Nat} (space : 0 < room) :
    r.poll mode room =
      match r.scanner.readBody room with
      | (.ok (.data bytes), s) => (.ready (.ok bytes), { r with scanner := s })
      | (.ok .finished, s) => (.ready (.ok []), { r with scanner := s })
      | (.error failure, s) => (.ready (.error failure), { r with scanner := s })
      | (.ok .needInput, s) =>
        match ask mode { r with scanner := s } with
        | (.ready (.ok ()), t) => t.poll mode room
        | (.ready (.error failure), t) => (.ready (.error failure), t)
        | (.pending, t) => (.pending, t) := by
  rw [poll, if_neg (Nat.ne_of_gt space)]
  split
  · rename_i read
    rw [read]
  · rename_i read
    rw [read]
  · rename_i read
    rw [read]
  · rename_i s read
    rw [read]
    simp only
    split <;> rename_i asked <;> rw [asked]

/-- Reading waits for what is polled. -/
theorem read_step (mode : Mode) (r : Reader σ) (room : Nat) :
    r.read mode room =
      match r.poll mode room with
      | (.ready result, t) => (result, t)
      | (.pending, t) => t.read mode room := by
  rw [read]
  split <;> simp_all

/-- Draining goes by what is read first. -/
theorem drain_step (mode : Mode) (r : Reader σ) :
    r.drain mode =
      match r.read mode portion with
      | (.ok [], t) => (⟨[], none⟩, t)
      | (.ok (b :: bytes), t) =>
        (⟨b :: bytes ++ (t.drain mode).1.bytes, (t.drain mode).1.failure⟩, (t.drain mode).2)
      | (.error failure, t) => (⟨[], some failure⟩, t) := by
  rw [drain]
  split <;> simp_all

theorem readAll_eq (mode : Mode) (r : Reader σ) :
    r.readAll mode = ((r.drain mode).1.result mode, (r.drain mode).2) := by
  unfold readAll
  rcases r.drain mode with ⟨⟨bytes, _ | failure⟩, t⟩ <;> rfl

theorem readToEnd_eq (mode : Mode) (r : Reader σ) :
    r.readToEnd mode = ((r.drain mode).1.streamed, (r.drain mode).2) := by
  unfold readToEnd
  rcases r.drain mode with ⟨⟨bytes, _ | failure⟩, t⟩ <;> rfl

/-! ## Bodies -/

/-- One turn of recording a body. -/
theorem transcript_step (mode : Mode) (vs : Visitors) (times : Nat) (r : Reader σ) :
    r.transcript mode vs (times + 1) =
      match r.nextEvent mode with
      | (.ok (some (.preamble bytes)), t) =>
        (.preamble bytes :: (t.transcript mode vs (times + 1)).1,
          (t.transcript mode vs (times + 1)).2)
      | (.ok (some (.epilogue bytes)), t) =>
        (.epilogue bytes :: (t.transcript mode vs (times + 1)).1,
          (t.transcript mode vs (times + 1)).2)
      | (.ok (some (.opened headers)), t) =>
        (.opened headers (vs.first.visit headers t).1 ::
            ((vs.first.visit headers t).2.transcript mode vs.next (times + 1)).1,
          ((vs.first.visit headers t).2.transcript mode vs.next (times + 1)).2)
      | (.ok none, t) =>
        (.over :: (t.transcript mode vs times).1, (t.transcript mode vs times).2)
      | (.error failure, t) =>
        (.failed failure :: (t.transcript mode vs (times + 1)).1,
          (t.transcript mode vs (times + 1)).2) := by
  rw [transcript]
  split <;> rename_i event <;> rw [event]

/-- One turn of reading the parts of a body. -/
theorem parts_step (mode : Mode) (r : Reader σ) :
    r.parts mode =
      match r.nextEvent mode with
      | (.ok none, _) => .ok []
      | (.ok (some (.opened headers)), t) =>
        match t.readAll mode with
        | (.ok content, u) => (u.parts mode).map (⟨headers, content⟩ :: ·)
        | (.error failure, _) => .error failure
      | (.ok (some (.preamble _)), t) | (.ok (some (.epilogue _)), t) => t.parts mode
      | (.error failure, _) => .error failure := by
  rw [parts]
  split <;> simp_all
  split <;> simp_all

end Reader

/-! ## Actions -/

namespace Action

/-- The action reads what is left of the section. -/
def Whole : Action → Prop
  | .portion _ | .nested _ => False
  | _ => True

/-- What such an action tells of what is left, in this charset. -/
def told (mode : Mode) (charset : Charset) (content : Content) : Action → List Outcome
  | .all => [.all (content.result mode)]
  | .text => [.text ((content.result mode).map charset.decode)]
  | .toEnd => [.toEnd content.streamed.1 content.streamed.2]
  | .skip => [.skipped ((content.result mode).map fun _ => ())]
  | .portion _ | .nested _ => []

/-- Whatever reads a section as a whole tells of what it drains. -/
theorem Whole.visit_eq {σ : Type} [ByteSource σ] {action : Action} (whole : action.Whole)
    (mode : Mode) (headers : Headers) (r : Reader σ) :
    (action.visitor mode).visit headers r =
      (action.told mode r.charset (r.drain mode).1, (r.drain mode).2) := by
  cases action with
  | all => simp only [visitor, Visitor.all, Reader.readAll_eq, told]
  | text => simp only [visitor, Visitor.text, Reader.readText, Reader.readAll_eq, told]
  | toEnd => simp only [visitor, Visitor.toEnd, Reader.readToEnd_eq, told]
  | skip => simp only [visitor, Visitor.skip, Reader.skip, Reader.readAll_eq, told]
  | portion | nested => exact whole.elim

end Action

end HttpForms.Multipart
