import HttpForms.Multipart.Visitor
import HttpForms.Proofs.Reader.Delivery
import HttpForms.Proofs.Reader.Steps

/-!
# Bodies without a fault

Where a body goes on to its epilogue, what is foreseen of it is a list of parts. A reader that reads
every section as a whole gives just these parts back.

Results:

1. `transcript_of_whole` — the record of such a body;
2. `parts_of_whole` — its parts;
3. `Script.gives` — a script of octets gives them in order.
-/

namespace HttpForms.Multipart

/-- The items of sections that hold these parts. -/
def sectionItems (parts : List Part) : List Item :=
  parts.flatMap fun part => [.opened part.headers, .content part.content]

/-- The items of a body that nothing is wrong with. -/
def wholeItems (preamble : Bytes) (parts : List Part) (epilogue : Bytes) : List Item :=
  .preamble preamble :: (sectionItems parts ++ [.epilogue epilogue])

/-- The entries of sections that are read as a whole. -/
def sectionEntries (parts : List Part) : List Entry :=
  parts.map fun part => .opened part.headers [.all (.ok part.content)]

theorem sectionItems_cons (part : Part) (parts : List Part) :
    sectionItems (part :: parts) =
      .opened part.headers :: .content part.content :: sectionItems parts :=
  rfl

theorem sectionItems_ne_failed (parts : List Part) (epilogue : Bytes) (failure : Failure) :
    sectionItems parts ++ [.epilogue epilogue] ≠ [.failed failure] := by
  cases parts <;> simp [sectionItems]

/-! ## Scripts -/

theorem Gives.of_poll_eq {σ : Type} [ByteSource σ] {room : Nat} {source source' : σ} {bytes : Bytes}
    (gives : Gives room source' bytes)
    (same : ByteSource.poll source room = ByteSource.poll source' room) :
    Gives room source bytes := by
  cases gives with
  | data polled solid later => exact .data (same.trans polled) solid later
  | ended polled => exact .ended (same.trans polled)
  | interrupted polled later => exact .interrupted (same.trans polled) later
  | pending polled later => exact .pending (same.trans polled) later

theorem Script.gives_piece {room : Nat} {pieces : List Piece} {rest : Bytes} (space : 0 < room)
    (later : Gives room (Script.mk pieces) rest) (chunk : Bytes) :
    Gives room (Script.mk (.data chunk :: pieces)) (chunk ++ rest) := by
  induction length : chunk.length using Nat.strongRecOn generalizing chunk with
  | ind length ih =>
    cases chunk with
    | nil => exact later.of_poll_eq rfl
    | cons b bytes =>
      have polled : ByteSource.poll (Script.mk (.data (b :: bytes) :: pieces)) room =
          (.data ((b :: bytes).take room), ⟨if room < (b :: bytes).length then
            .data ((b :: bytes).drop room) :: pieces else pieces⟩) := rfl
      have solid : (b :: bytes).take room ≠ [] := by
        intro none
        have taken := congrArg List.length none
        simp only [List.length_take, List.length_cons, List.length_nil] at taken
        omega
      -- A piece that is longer than the room is asked for more than once.
      by_cases more : room < (b :: bytes).length
      · rw [if_pos more] at polled
        have whole : b :: bytes ++ rest =
            (b :: bytes).take room ++ ((b :: bytes).drop room ++ rest) := by
          rw [← List.append_assoc, List.take_append_drop]
        rw [whole]
        refine .data polled solid (ih _ ?_ _ rfl)
        rw [← length, List.length_drop]
        omega
      · rw [if_neg more] at polled
        rw [List.take_of_length_le (Nat.le_of_not_lt more)] at polled solid
        exact .data polled solid later

/-- A script that holds nothing but octets gives them in order. -/
theorem Script.gives {room : Nat} (space : 0 < room) (chunks : List Bytes) :
    Gives room (Script.mk (chunks.map .data)) chunks.flatten := by
  induction chunks with
  | nil => exact .ended rfl
  | cons chunk chunks ih => exact gives_piece space ih chunk

namespace Reader

variable {σ : Type} [ByteSource σ] {mode : Mode} {vs : Visitors} {r : Reader σ}
  {headers : Headers} {bytes preamble epilogue : Bytes} {parts : List Part}

/-! ## Events that are known -/

theorem nextEvent_of_preamble {more : List Item} (mode : Mode)
    (foresees : r.Foresees (.preamble bytes :: more)) :
    ∃ t, r.nextEvent mode = (.ok (some (.preamble bytes)), t) ∧ t.Foresees more := by
  have tells := nextEvent_tells mode foresees
  rcases event : r.nextEvent mode with ⟨_ | _ | _ | _ | _, t⟩ <;> rw [event] at tells <;>
    simp only [Tells, pastContent, List.cons.injEq, Item.preamble.injEq, reduceCtorEq, false_and,
      exists_false] at tells
  obtain ⟨_, ⟨rfl, rfl⟩, -, onward⟩ := tells
  exact ⟨t, rfl, onward⟩

theorem nextEvent_of_opened {content : Bytes} {more : List Item} (mode : Mode)
    (foresees : r.Foresees (.opened headers :: .content content :: more)) :
    ∃ t, r.nextEvent mode = (.ok (some (.opened headers)), t) ∧ t.scanner.phase = .body ∧
      t.Foresees (.content content :: more) := by
  have tells := nextEvent_tells mode foresees
  rcases event : r.nextEvent mode with ⟨_ | _ | _ | _ | _, t⟩ <;> rw [event] at tells <;>
    simp only [Tells, pastContent, List.cons.injEq, Item.opened.injEq, Item.content.injEq,
      reduceCtorEq, and_false, false_and, exists_false] at tells
  obtain ⟨_, _, ⟨rfl, rfl, rfl⟩, body, onward⟩ := tells
  exact ⟨t, rfl, body, onward⟩

theorem nextEvent_of_epilogue (mode : Mode) (foresees : r.Foresees [.epilogue bytes]) :
    ∃ t, r.nextEvent mode = (.ok (some (.epilogue bytes)), t) ∧ t.Foresees [] := by
  have tells := nextEvent_tells mode foresees
  rcases event : r.nextEvent mode with ⟨_ | _ | _ | _ | _, t⟩ <;> rw [event] at tells <;>
    simp only [Tells, pastContent, List.cons.injEq, Item.epilogue.injEq, reduceCtorEq, and_true,
      and_false, false_and, exists_false] at tells
  obtain ⟨rfl, onward⟩ := tells
  exact ⟨t, rfl, onward⟩

theorem nextEvent_of_nil (mode : Mode) (foresees : r.Foresees []) :
    ∃ t, r.nextEvent mode = (.ok none, t) ∧ t.Foresees [] := by
  have tells := nextEvent_tells mode foresees
  rcases event : r.nextEvent mode with ⟨_ | _ | _ | _ | _, t⟩ <;> rw [event] at tells <;>
    simp only [Tells, pastContent, reduceCtorEq, false_and, exists_false] at tells
  exact ⟨t, rfl, tells.2⟩

/-! ## Records -/

/-- Behind the last event there is none, however often it is asked for. -/
theorem transcript_of_nil (foresees : r.Foresees []) (times : Nat) :
    (r.transcript mode vs times).1 = List.replicate times .over := by
  induction times generalizing r with
  | zero => simp [transcript]
  | succ times ih =>
    obtain ⟨t, event, onward⟩ := nextEvent_of_nil mode foresees
    rw [transcript_step, event]
    exact congrArg (.over :: ·) (ih onward)

theorem transcript_of_sections (times : Nat)
    (foresees : r.Foresees (sectionItems parts ++ [.epilogue epilogue])) :
    (r.transcript mode ⟨.all mode, []⟩ (times + 1)).1 =
      sectionEntries parts ++ .epilogue epilogue :: List.replicate (times + 1) .over := by
  induction parts generalizing r with
  | nil =>
    obtain ⟨t, event, onward⟩ := nextEvent_of_epilogue mode foresees
    rw [transcript_step, event]
    exact congrArg (.epilogue epilogue :: ·) (transcript_of_nil onward (times + 1))
  | cons part parts ih =>
    obtain ⟨t, event, body, onward⟩ := nextEvent_of_opened mode foresees
    obtain ⟨read, later⟩ := readAll_yields mode onward body (sectionItems_ne_failed parts epilogue)
    have visited : (Visitor.all mode).visit part.headers t =
        ([.all (.ok part.content)], (t.readAll mode).2) := by
      simp only [Visitor.all, read]
    rw [transcript_step, event]
    simp only [visited]
    exact congrArg (.opened part.headers [.all (.ok part.content)] :: ·) (ih later)

/-- A body that nothing is wrong with is recorded as the parts it holds. -/
theorem transcript_of_whole (times : Nat)
    (foresees : r.Foresees (wholeItems preamble parts epilogue)) :
    (r.transcript mode ⟨.all mode, []⟩ (times + 1)).1 =
      .preamble preamble :: (sectionEntries parts ++
        .epilogue epilogue :: List.replicate (times + 1) .over) := by
  obtain ⟨t, event, onward⟩ := nextEvent_of_preamble mode foresees
  rw [transcript_step, event]
  exact congrArg (.preamble preamble :: ·) (transcript_of_sections times onward)

/-! ## Parts -/

theorem parts_of_sections (foresees : r.Foresees (sectionItems parts ++ [.epilogue epilogue])) :
    r.parts mode = .ok parts := by
  induction parts generalizing r with
  | nil =>
    obtain ⟨t, event, onward⟩ := nextEvent_of_epilogue mode foresees
    obtain ⟨u, last, -⟩ := nextEvent_of_nil mode onward
    rw [parts_step, event]
    simp only [parts_step mode t, last]
  | cons part parts ih =>
    obtain ⟨t, event, body, onward⟩ := nextEvent_of_opened mode foresees
    obtain ⟨read, later⟩ := readAll_yields mode onward body (sectionItems_ne_failed parts epilogue)
    rcases reading : t.readAll mode with ⟨_, u⟩
    rw [reading] at read later
    obtain rfl := read
    rw [parts_step, event]
    simp only [reading, ih later]
    rfl

/-- A body that nothing is wrong with is read as the parts it holds. -/
theorem parts_of_whole (foresees : r.Foresees (wholeItems preamble parts epilogue)) :
    r.parts mode = .ok parts := by
  obtain ⟨t, event, onward⟩ := nextEvent_of_preamble mode foresees
  rw [parts_step, event]
  exact parts_of_sections onward

/-! ## New readers -/

/-- A new reader foresees the parse of what its source gives. -/
theorem new_foresees {source : σ} {b : Boundary} {charset : Charset} {limits : Limits}
    {input : Bytes} {items : List Item} (gives : Gives limits.chunkSize source input)
    (parses : Format.Parses ⟨b, charset, limits.headerLimit⟩ .front input items) :
    ∃ r, Reader.new source b.text charset limits = .ok r ∧ r.charset = charset ∧
      r.Foresees items := by
  refine ⟨⟨source, .new b charset limits, limits.chunkSize⟩, ?_, rfl,
    input, Scanner.new_foresees.2 parses, fun _ => gives⟩
  have valid : Boundary.ofString b.text = .ok b := by
    unfold Boundary.ofString
    rw [dif_pos b.valid]
  rw [Reader.new, Scanner.ofText, valid]
  rfl

end Reader

end HttpForms.Multipart
