import HttpForms.Proofs.Reader.Prompt

/-!
# Errors that go through a stream

A polled section is read through its stream, and what the stream carries is taken out again. A failure
of the body's shape survives that, and so does an error of the source as long as it does not itself
carry the failure of a body.

Results:

1. `drain_survives` — of a plain script, what keeps a section from being read survives the way through
   the stream;
2. `readAll_core` — so a section is read as the blocking reader of the core reads it.
-/

namespace HttpForms.Multipart

/-- The failure is the same when it comes out of a stream. -/
def Failure.Survives (failure : Failure) : Prop :=
  Failure.ofStream failure.toStream = failure

theorem Failure.survives_replay (failure : Failure) : failure.replay.Survives := by
  cases failure <;> rfl

namespace Scanner

variable {s t : Scanner} {failure : Failure}

theorem available_error (failed : s.available = (.error failure, t)) : failure = .unterminatedBody := by
  have error_of_await {s : Scanner} (failed : s.await .needInput .unterminatedBody =
      ((.error failure, t) : Except Failure Front × Scanner)) : failure = .unterminatedBody := by
    unfold await fail at failed
    split at failed <;> cases failed
    rfl
  unfold available at failed
  rcases front : s.buffer.find s.boundary.delimiter with ⟨(_ | place) | (_ | safe), buffer⟩ <;>
    simp only [front] at failed
  · rcases marker : Marker.classify (buffer.bytes.drop s.boundary.delimiter.length) with
      length | _ | _ | _ <;> simp only [marker] at failed
    · cases failed
    · cases failed
    · exact error_of_await failed
    · cases failed
  · cases failed
  · exact error_of_await failed
  · cases failed

/-- What a scanner fails for is of the shape of the body, or is repeated. -/
theorem readBody_survives {room : Nat} (failed : s.readBody room = (.error failure, t)) :
    failure.Survives := by
  unfold readBody at failed
  split at failed
  · cases failed
    exact Failure.survives_replay _
  · rcases front : s.available with ⟨_ | _ | _ | _ | _, u⟩ <;> rw [front] at failed <;> cases failed
    rw [available_error front]
    rfl
  · cases failed

end Scanner

namespace Script

/-- No error of the script carries the failure of a body. One of kind interrupted may, since it is
never reported. -/
def Plain (s : Script) : Prop :=
  ∀ kind failure, .fail (.carrying kind failure) ∈ s.pieces → kind = .interrupted

section PlainLemmas

variable {pieces rest : List Piece} {error : StreamError} {room : Nat}

/-- What is left of a script holds no other errors. -/
theorem fail_mem_of_poll (room : Nat) (there : .fail error ∈ (pollPieces room pieces).2) :
    .fail error ∈ pieces := by
  fun_induction pollPieces room pieces with
  | case1 => exact there
  | case2 rest ih => exact List.mem_cons_of_mem _ (ih there)
  | case3 b bytes rest =>
    split at there
    · rcases List.mem_cons.1 there with same | later
      · cases same
      · exact List.mem_cons_of_mem _ later
    · exact List.mem_cons_of_mem _ there
  | case4 _ rest | case5 rest | case6 rest => exact List.mem_cons_of_mem _ there

/-- What a script reports is an error of it, and none of kind interrupted. -/
theorem fail_mem_of_failed (failed : pollPieces room pieces = (.failed error, rest)) :
    .fail error ∈ pieces ∧ error.kind ≠ .interrupted := by
  fun_induction pollPieces room pieces with
  | case2 pieces ih =>
    obtain ⟨there, kind⟩ := ih failed
    exact ⟨List.mem_cons_of_mem _ there, kind⟩
  | case4 error' pieces =>
    split at failed
    · cases failed
    · rename_i kind
      cases failed
      exact ⟨List.mem_cons_self, kind⟩
  | case1 | case3 | case5 | case6 => cases failed

theorem Plain.survives {s next : Script} (plain : s.Plain)
    (failed : ByteSource.poll s room = (.failed error, next)) : (Failure.source error).Survives := by
  have polled : pollPieces room s.pieces = (.failed error, (pollPieces room s.pieces).2) :=
    congrArg (fun polled => (polled, _)) (congrArg Prod.fst failed)
  obtain ⟨there, kind⟩ := fail_mem_of_failed polled
  cases error with
  | carrying kind' failure => exact absurd (plain kind' failure there) kind
  | plain | described | wrapping => rfl

end PlainLemmas

end Script

namespace Reader

/-- The reader of a plain script. -/
def Plain (r : Reader Script) : Prop :=
  r.source.Plain

section PlainLemmas

variable {r t : Reader Script} {mode : Mode} {room : Nat} {failure : Failure}

theorem plain_of_poll {source next : Script} {answer : Poll} (plain : source.Plain)
    (asked : ByteSource.poll source room = (answer, next)) : next.Plain := by
  intro kind failure there
  refine plain kind failure (Script.fail_mem_of_poll room ?_)
  rw [show next = (ByteSource.poll source room).2 from (congrArg Prod.snd asked).symm] at there
  exact there

theorem kept_plain : Kept Plain where
  step holds _ := holds
  content holds _ := holds
  data holds _ _ asked := plain_of_poll holds asked
  failed holds _ _ asked := plain_of_poll holds asked
  again holds _ _ asked _ := plain_of_poll holds asked

theorem ask_survives (plain : r.Plain) (failed : r.ask mode = (.ready (.error failure), t)) :
    failure.Survives := by
  fun_induction ask mode r with
  | case1 mode r bytes source asked => cases failed
  | case2 mode r error source asked =>
    cases failed
    exact Script.Plain.survives plain asked
  | case3 mode r source asked ih => exact ih (plain_of_poll plain asked) failed
  | case4 r source asked ih => exact ih (plain_of_poll plain asked) failed
  | case5 r source asked => cases failed

theorem poll_survives (plain : r.Plain) (failed : r.poll mode room = (.ready (.error failure), t)) :
    failure.Survives := by
  fun_induction poll mode r room with
  | case1 r => cases failed
  | case2 r _ bytes s read => cases failed
  | case3 r _ s read => cases failed
  | case4 r _ failure' s read =>
    cases failed
    exact Scanner.readBody_survives read
  | case5 r _ s read t' asked ih =>
    have onward := kept_plain.ask_of_needInput mode plain read
    rw [asked] at onward
    exact ih onward failed
  | case6 r _ s read failure' t' asked =>
    cases failed
    exact ask_survives (r := { r with scanner := s }) plain asked
  | case7 r _ s read t' asked => cases failed

theorem read_survives (plain : r.Plain) (failed : r.read mode room = (.error failure, t)) :
    failure.Survives := by
  fun_induction read mode r room with
  | case1 r result t' polled =>
    cases failed
    exact poll_survives plain polled
  | case2 r t' polled ih =>
    have onward := kept_plain.poll mode r room plain
    rw [polled] at onward
    exact ih onward failed

/-- What keeps a section from being read survives the way through the stream. -/
theorem drain_survives (plain : r.Plain) (failed : (r.drain mode).1.failure = some failure) :
    failure.Survives := by
  fun_induction drain mode r with
  | case1 r t read => cases failed
  | case2 r b bytes t read rest u drained ih =>
    have onward := (kept_plain.poll mode).read portion plain
    rw [read] at onward
    refine ih onward ?_
    rw [drained]
    exact failed
  | case3 r failure' t read =>
    cases failed
    exact read_survives plain read

/-- The stream of a section goes on to the same end. -/
theorem readToEnd_core (mode : Mode) (r : Reader Script) :
    r.core.readToEnd .blocking = ((r.readToEnd mode).1, (r.readToEnd mode).2.core) := by
  unfold readToEnd
  rw [drain_core mode]
  rcases r.drain mode with ⟨⟨bytes, _ | failure⟩, t⟩ <;> rfl

/-- A section of a plain script is read as the blocking reader of the core reads it. -/
theorem readAll_core (mode : Mode) (plain : r.Plain) :
    r.core.readAll .blocking = ((r.readAll mode).1, (r.readAll mode).2.core) := by
  unfold readAll
  rw [drain_core mode]
  rcases drained : r.drain mode with ⟨⟨bytes, _ | failure⟩, t⟩
  · rfl
  · have survives : failure.Survives := drain_survives plain (by rw [drained])
    cases mode with
    | blocking => rfl
    | polled =>
      show (Except.error failure, t.core) = (.error (Failure.ofStream failure.toStream), t.core)
      rw [show Failure.ofStream failure.toStream = failure from survives]

end PlainLemmas

end Reader

end HttpForms.Multipart
