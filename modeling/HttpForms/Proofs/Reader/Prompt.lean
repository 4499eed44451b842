import HttpForms.Proofs.Reader.Rooms

/-!
# Waiting for a source

A source that has nothing yet says so, and a polled reader hands that on to its caller. Without these
answers the source is a prompt one, and a reader of it never waits. What a reader does, in whatever
mode, is what a blocking reader does of the prompt source: wherever it was left waiting, it resumes as
if nothing had happened.

Results:

1. `nextEvent_core` — the next event is the same, and so is the reader behind it;
2. `read_core`, `drain_core` — so is the content of a section.
-/

namespace HttpForms.Multipart

/-! ## Scripts -/

/-- Whether an answer comes of the piece, other than that nothing is there yet. -/
def Piece.isCore : Piece → Bool
  | .pending | .data [] => false
  | _ => true

namespace Script

/-- The pieces that an answer comes of. -/
def core (s : Script) : Script :=
  ⟨s.pieces.filter Piece.isCore⟩

/-- The script without the times when there was nothing yet. -/
def prompt (s : Script) : Script :=
  ⟨s.pieces.filter (· != .pending)⟩

section ScriptLemmas

variable {pieces : List Piece} {s next : Script} {room : Nat}

theorem core_prompt (s : Script) : s.prompt.core = s.core := by
  simp only [core, prompt, List.filter_filter]
  congr 1
  refine List.filter_congr fun piece _ => ?_
  cases piece <;> simp [Piece.isCore]

/-- Nothing is unread because of having to wait. -/
theorem unread_core (s : Script) : s.core.unread = s.unread := by
  obtain ⟨pieces⟩ := s
  simp only [unread, core]
  induction pieces with
  | nil => rfl
  | cons piece pieces ih =>
    match piece with
    | .pending => exact ih
    | .data [] => exact ih.trans (Nat.zero_add _).symm
    | .data (b :: bytes) => exact congrArg ((b :: bytes).length + ·) ih
    | .fail error => exact ih
    | .finish => exact ih

/-- Having to wait is no answer, and every other answer comes of the core as well. -/
theorem pollPieces_core {answer : Poll} {rest : List Piece}
    (asked : pollPieces room pieces = (answer, rest)) :
    (answer = .pending → rest.filter Piece.isCore = pieces.filter Piece.isCore) ∧
      (answer ≠ .pending →
        pollPieces room (pieces.filter Piece.isCore) = (answer, rest.filter Piece.isCore)) := by
  fun_induction pollPieces room pieces with
  | case1 =>
    cases asked
    exact ⟨Poll.noConfusion, fun _ => rfl⟩
  | case2 pieces ih => exact ih asked
  | case3 b bytes pieces =>
    cases asked
    refine ⟨Poll.noConfusion, fun _ => ?_⟩
    have front : (Piece.data (b :: bytes) :: pieces).filter Piece.isCore =
        .data (b :: bytes) :: pieces.filter Piece.isCore := rfl
    rw [front, pollPieces]
    split
    · rename_i longer
      have behind : (b :: bytes).drop room ≠ [] := by
        rw [Ne, List.drop_eq_nil_iff]
        omega
      obtain ⟨c, left, more⟩ := List.exists_cons_of_ne_nil behind
      rw [more]
      rfl
    · rfl
  | case4 error pieces =>
    cases asked
    refine ⟨fun none => ?_, fun _ => rfl⟩
    split at none <;> cases none
  | case5 pieces =>
    cases asked
    exact ⟨Poll.noConfusion, fun _ => rfl⟩
  | case6 pieces =>
    cases asked
    exact ⟨fun _ => rfl, fun some_ => absurd rfl some_⟩

end ScriptLemmas

end Script

namespace Reader

/-- The reader of the core of its script. -/
def core (r : Reader Script) : Reader Script :=
  { r with source := r.source.core }

section CoreLemmas

variable {r t : Reader Script} {mode : Mode} {room : Nat}

/-- What the source answers, the core of it answers too, apart from having to wait. -/
theorem source_core {answer : Poll} {source : Script}
    (asked : ByteSource.poll r.source r.chunkSize = (answer, source)) :
    (answer = .pending → source.core = r.source.core) ∧
      (answer ≠ .pending →
        ByteSource.poll r.core.source r.core.chunkSize = (answer, source.core)) := by
  cases asked
  have polled : Script.pollPieces r.chunkSize r.source.pieces = _ := rfl
  obtain ⟨waits, answers⟩ := Script.pollPieces_core polled
  refine ⟨fun none => congrArg Script.mk (waits none), fun some_ => ?_⟩
  exact congrArg (fun polled => (polled.1, Script.mk polled.2)) (answers some_)

/-! ## Asking -/

/-- Asking leads where asking the core leads. Whoever has to wait is led there later. -/
def AsksCore (r : Reader Script) : Polled (Except Failure Unit) × Reader Script → Prop
  | (.pending, t) => t.scanner = r.scanner ∧ r.core.ask .blocking = t.core.ask .blocking
  | (.ready result, t) => r.core.ask .blocking = (.ready result, t.core)

theorem AsksCore.of_ask {s : Reader Script} {asked : Polled (Except Failure Unit) × Reader Script}
    (asks : AsksCore s asked) (scanner : s.scanner = r.scanner)
    (same : r.core.ask .blocking = s.core.ask .blocking) : AsksCore r asked := by
  match asked, asks with
  | (.pending, t), ⟨scanner', same'⟩ => exact ⟨scanner'.trans scanner, same.trans same'⟩
  | (.ready result, t), ready => exact same.trans ready

theorem ask_core (mode : Mode) (r : Reader Script) : AsksCore r (r.ask mode) := by
  fun_induction ask mode r with
  | case1 mode r bytes source asked =>
    show r.core.ask .blocking = _
    rw [ask_step, (source_core asked).2 Poll.noConfusion]
    rfl
  | case2 mode r error source asked =>
    show r.core.ask .blocking = _
    rw [ask_step, (source_core asked).2 Poll.noConfusion]
    rfl
  | case3 mode r source asked ih =>
    refine ih.of_ask rfl ?_
    rw [ask_step, (source_core asked).2 Poll.noConfusion]
    rfl
  | case4 r source asked ih =>
    refine ih.of_ask rfl ?_
    simp only [core, (source_core asked).1 rfl]
  | case5 r source asked =>
    refine ⟨rfl, ?_⟩
    simp only [core, (source_core asked).1 rfl]

/-- Filling a reader fills the reader of the core. -/
theorem fill_core (mode : Mode) (r : Reader Script) :
    r.core.fill .blocking = ((r.fill mode).1, (r.fill mode).2.core) := by
  fun_induction fill mode r with
  | case1 r result t asked =>
    have asks := ask_core mode r
    rw [asked] at asks
    rw [fill_step, show r.core.ask .blocking = _ from asks]
  | case2 r t asked ih =>
    have asks := ask_core mode r
    rw [asked] at asks
    rw [← ih, fill_step, asks.2, ← fill_step]

/-! ## Events -/

/-- The next event is that of the reader of the core. -/
theorem nextEvent_core (mode : Mode) (r : Reader Script) :
    r.core.nextEvent .blocking = ((r.nextEvent mode).1, (r.nextEvent mode).2.core) := by
  have scanner (r : Reader Script) : r.core.scanner = r.scanner := rfl
  fun_induction nextEvent mode r with
  | case1 r bytes s step => rw [nextEvent_step, scanner, step]; rfl
  | case2 r headers s step => rw [nextEvent_step, scanner, step]; rfl
  | case3 r bytes s step => rw [nextEvent_step, scanner, step]; rfl
  | case4 r s step => rw [nextEvent_step, scanner, step]; rfl
  | case5 r failure s step => rw [nextEvent_step, scanner, step]; rfl
  | case6 r s step t filled ih =>
    have fills := fill_core mode { r with scanner := s }
    rw [filled] at fills
    rw [nextEvent_step, scanner, step, ← ih]
    simp only [show Reader.fill .blocking { r.core with scanner := s } = _ from fills]
  | case7 r s step failure t filled =>
    have fills := fill_core mode { r with scanner := s }
    rw [filled] at fills
    rw [nextEvent_step, scanner, step]
    simp only [show Reader.fill .blocking { r.core with scanner := s } = _ from fills]

/-! ## Content -/

/-- Polling leads where polling the reader of the core leads. Whoever has to wait is led there later. -/
def PollsCore (room : Nat) (r : Reader Script) :
    Polled (Except Failure Bytes) × Reader Script → Prop
  | (.pending, t) => r.core.poll .blocking room = t.core.poll .blocking room
  | (.ready result, t) => r.core.poll .blocking room = (.ready result, t.core)

theorem PollsCore.of_poll {polled : Polled (Except Failure Bytes) × Reader Script}
    (polls : PollsCore room t polled)
    (same : r.core.poll .blocking room = t.core.poll .blocking room) : PollsCore room r polled := by
  match polled, polls with
  | (.pending, u), later => exact same.trans later
  | (.ready result, u), ready => exact same.trans ready

/-- Polling asks the source where the scanner needs input. -/
theorem poll_needInput (space : 0 < room)
    (waits : r.scanner.readBody room = (.ok .needInput, r.scanner)) :
    r.poll mode room =
      match r.ask mode with
      | (.ready (.ok ()), t) => t.poll mode room
      | (.ready (.error failure), t) => (.ready (.error failure), t)
      | (.pending, t) => (.pending, t) := by
  obtain ⟨source, scanner, chunkSize⟩ := r
  rw [poll_step mode _ space, waits]
  rcases asked : ask mode ⟨source, scanner, chunkSize⟩ with ⟨_ | (_ | _), t⟩ <;> simp only [asked]

theorem poll_core (mode : Mode) (r : Reader Script) (room : Nat) :
    PollsCore room r (r.poll mode room) := by
  have scanner (r : Reader Script) : r.core.scanner = r.scanner := rfl
  fun_induction poll mode r room with
  | case1 r =>
    rename_i none
    show r.core.poll .blocking room = _
    rw [poll, if_pos none]
  | case2 r space bytes s read =>
    show r.core.poll .blocking room = _
    rw [poll_step .blocking _ (Nat.pos_of_ne_zero space), scanner, read]
    rfl
  | case3 r space s read =>
    show r.core.poll .blocking room = _
    rw [poll_step .blocking _ (Nat.pos_of_ne_zero space), scanner, read]
    rfl
  | case4 r space failure s read =>
    show r.core.poll .blocking room = _
    rw [poll_step .blocking _ (Nat.pos_of_ne_zero space), scanner, read]
    rfl
  | case5 r space s read t asked ih =>
    have asks := ask_core mode { r with scanner := s }
    rw [asked] at asks
    refine ih.of_poll ?_
    rw [poll_step .blocking _ (Nat.pos_of_ne_zero space), scanner, read]
    simp only [show Reader.ask .blocking { r.core with scanner := s } = _ from asks]
  | case6 r space s read failure t asked =>
    have asks := ask_core mode { r with scanner := s }
    rw [asked] at asks
    show r.core.poll .blocking room = _
    rw [poll_step .blocking _ (Nat.pos_of_ne_zero space), scanner, read]
    simp only [show Reader.ask .blocking { r.core with scanner := s } = _ from asks]
  | case7 r space s read t asked =>
    have asks := ask_core mode { r with scanner := s }
    rw [asked] at asks
    obtain ⟨same, later⟩ := asks
    obtain ⟨rfl, -⟩ := Scanner.readBody_needInput read
    have positive := Nat.pos_of_ne_zero space
    show r.core.poll .blocking room = t.core.poll .blocking room
    rw [poll_needInput (r := r.core) positive read,
      poll_needInput (r := t.core) positive (by rw [scanner, same]; exact read)]
    simp only [show r.core.ask .blocking = _ from later]

/-- Content is read as by the reader of the core. -/
theorem read_core (mode : Mode) (r : Reader Script) (room : Nat) :
    r.core.read .blocking room = ((r.read mode room).1, (r.read mode room).2.core) := by
  fun_induction read mode r room with
  | case1 r result t polled =>
    have polls := poll_core mode r room
    rw [polled] at polls
    rw [read_step, show r.core.poll .blocking room = _ from polls]
  | case2 r t polled ih =>
    have polls := poll_core mode r room
    rw [polled] at polls
    rw [← ih, read_step, show r.core.poll .blocking room = _ from polls, ← read_step]

theorem drain_core (mode : Mode) (r : Reader Script) :
    r.core.drain .blocking = ((r.drain mode).1, (r.drain mode).2.core) := by
  fun_induction drain mode r with
  | case1 r t read => rw [drain_step, read_core mode, read]
  | case2 r b bytes t read rest u drained ih =>
    rw [drained] at ih
    rw [drain_step, read_core mode, read]
    simp only [ih]
  | case3 r failure t read => rw [drain_step, read_core mode, read]

end CoreLemmas

end Reader

end HttpForms.Multipart
