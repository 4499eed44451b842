import HttpForms.Proofs.Scanner.Foresight
import HttpForms.Proofs.Scanner.Phases

/-!
# The protocol of a scanner

A scanner may be fed, finished, aborted, stepped and read from in any order. Whatever the order, its
replies keep to one protocol: a preamble, sections and an epilogue are told one after the other,
content comes inside sections only, and the first failure is the last thing that is told; from then on
every step says that all is done and every read repeats the latest failure.

Results:

1. `follows_perform` — one operation keeps what the replies so far say of the scanner;
2. `follows_operations` — so does any sequence of operations;
3. `replies_orderly` — the replies of a new scanner keep to the protocol.
-/

namespace HttpForms.Multipart

/-! ## Operations and replies -/

/-- Something that is done with a scanner. -/
inductive Operation
  | feed (chunk : Bytes)
  | finish
  | abort (failure : Failure)
  | next
  /-- Reads content, with room for so many octets. -/
  | read (room : Nat)
  deriving DecidableEq, Repr

/-- What a scanner gives back. -/
inductive Reply
  /-- Input is taken without an answer. -/
  | taken
  | aborted (failure : Failure)
  | step (result : Except Failure Step)
  | portion (result : Except Failure Portion)
  deriving DecidableEq, Repr

/-- One operation: the reply, and the scanner behind it. -/
def Scanner.perform (s : Scanner) : Operation → Reply × Scanner
  | .feed chunk => (.taken, s.feed chunk)
  | .finish => (.taken, s.finish)
  | .abort failure => (.aborted (s.abort failure).1, (s.abort failure).2)
  | .next => (.step s.next.1, s.next.2)
  | .read room => (.portion (s.readBody room).1, (s.readBody room).2)

/-- The scanner behind a sequence of operations. -/
def Scanner.after (s : Scanner) : List Operation → Scanner
  | [] => s
  | operation :: later => (s.perform operation).2.after later

/-- The replies to a sequence of operations, one for each. -/
def Scanner.replies (s : Scanner) : List Operation → List Reply
  | [] => []
  | operation :: later => (s.perform operation).1 :: (s.perform operation).2.replies later

namespace Reply

/-- The failure that a reply reports, or that stopped the scanner. -/
def cause? : Reply → Option Failure
  | .aborted failure | .step (.error failure) | .portion (.error failure) => some failure
  | _ => none

/-- Whether the scanner was stopped from outside. -/
def isAbort : Reply → Bool
  | .aborted _ => true
  | _ => false

/-- Whether a section begins. -/
def isOpening : Reply → Bool
  | .step (.ok (.opened _)) => true
  | _ => false

/-- Whether a reply asks for input. -/
def isHungry : Reply → Bool
  | .step (.ok .needInput) | .portion (.ok .needInput) => true
  | _ => false

/-- Whether the reply leaves the scanner where it is, as far as can be told. -/
def isQuiet : Reply → Bool
  | .taken | .step (.ok .needInput) | .portion (.ok .needInput) | .portion (.ok (.data _)) => true
  | _ => false

/-- The step that a reply tells of. To need input is none. -/
def told? : Reply → Option Step
  | .step (.ok .needInput) => none
  | .step (.ok answer) => some answer
  | _ => none

end Reply

/-- The steps that replies tell of. -/
def told (replies : List Reply) : List Step :=
  replies.filterMap Reply.told?

/-! ## The protocol -/

/-- The steps of a body: the preamble, sections, the epilogue, and then nothing more however often
one asks. -/
def bodySteps (preamble : Bytes) (sections : List Headers) (epilogue : Bytes) (n : Nat) : List Step :=
  .preamble preamble :: (sections.map .opened ++ .epilogue epilogue :: List.replicate n .done)

/-- The same failure, as far as its wording, its limit and the kind and the text of a source's error
go. What is behind a source's error may differ. -/
def Failure.Alike : Failure → Failure → Prop
  | .source error, .source other => error.kind = other.kind ∧ error.text = other.text
  | failure, other => failure = other

/-- Failures are alike if they are repeated in the same way. -/
theorem Failure.alike_of_replay {failure other : Failure} (same : failure.replay = other.replay) :
    failure.Alike other := by
  cases failure <;> cases other <;> simp_all [Failure.replay, Failure.Alike]

/-- Replies that keep to the protocol. -/
structure Orderly (replies : List Reply) : Prop where
  /-- Up to the first failure the steps are the first ones of a body. -/
  order : ∀ {before later}, replies = before ++ later → (∀ reply ∈ before, reply.cause? = none) →
    ∃ preamble sections epilogue n, told before <+: bodySteps preamble sections epilogue n
  /-- Behind a failure there is no step. -/
  stopped : ∀ {before fault later result}, replies = before ++ fault :: later →
    fault.cause?.isSome → .step result ∈ later → result = .ok .done
  /-- Content comes behind the beginning of a section, and behind nothing that would end it. -/
  content : ∀ {before bytes later}, replies = before ++ .portion (.ok (.data bytes)) :: later →
    ∃ earlier headers since, before = earlier ++ .step (.ok (.opened headers)) :: since ∧
      ∀ reply ∈ since, reply.isQuiet
  /-- A section that has ended gives no more content, and that is said each time. -/
  ended : ∀ {before since result later},
    replies = before ++ .portion (.ok .finished) :: (since ++ .portion result :: later) →
    (∀ reply ∈ since, reply.cause? = none ∧ reply.isOpening = false) → result = .ok .finished
  /-- Behind a failure every read reports the latest one. -/
  repeated : ∀ {before fault since result later failure},
    replies = before ++ fault :: (since ++ .portion result :: later) → fault.cause? = some failure →
    (∀ reply ∈ since, reply.isAbort = false) →
    ∃ again, result = .error again ∧ again.Alike failure

/-! ## One operation -/

namespace Scanner

/-- What the replies so far say of a scanner. -/
structure Follows (replies : List Reply) (s : Scanner) : Prop where
  /-- The steps that were told end where the scanner is. -/
  told : match s.phase.region with
    | .before => told replies = []
    | .between | .inside => ∃ preamble, ∃ sections : List Headers,
      told replies = .preamble preamble :: sections.map .opened
    | .done => ∃ preamble sections epilogue n,
      told replies = bodySteps preamble sections epilogue n
    | .failed => True
  /-- Only a failure stops a scanner, and every failure does. -/
  sound : s.phase.region = .failed ↔ ∃ reply ∈ replies, reply.cause?.isSome
  /-- In a section nothing has happened since it began. -/
  inside : s.phase = .body → ∃ earlier headers since,
    replies = earlier ++ .step (.ok (.opened headers)) :: since ∧ ∀ reply ∈ since, reply.isQuiet

section FollowsLemmas

variable {s t : Scanner} {replies : List Reply} {reply : Reply} {operations : List Operation}
  {cause failure : Failure}

theorem region_eq_inside_iff {phase : Phase} : phase.region = .inside ↔ phase = .body := by
  cases phase <;> simp [Phase.region]

theorem region_eq_failed_iff {phase : Phase} :
    phase.region = .failed ↔ ∃ cause, phase = .failed cause := by
  cases phase <;> simp [Phase.region]

theorem told_append_of_none (silent : reply.told? = none) :
    Multipart.told (replies ++ [reply]) = Multipart.told replies := by
  simp [Multipart.told, silent]

theorem told_append_of_some {step : Step} (tells : reply.told? = some step) :
    Multipart.told (replies ++ [reply]) = Multipart.told replies ++ [step] := by
  simp [Multipart.told, tells]

/-- A failure is all that has to be known of a scanner that it stopped. -/
theorem follows_of_failed (failed : t.phase.region = .failed)
    (fault : ∃ reply ∈ replies, reply.cause?.isSome) : Follows replies t where
  told := by rw [failed]; trivial
  sound := ⟨fun _ => fault, fun _ => failed⟩
  inside body := by simp [body, Phase.region] at failed

/-- Without a failure the scanner was not stopped before either. -/
theorem Follows.sound_append (follows : Follows replies s) (harmless : reply.cause? = none)
    (stays : t.phase.region = .failed ↔ s.phase.region = .failed) :
    t.phase.region = .failed ↔ ∃ other ∈ replies ++ [reply], other.cause?.isSome := by
  rw [stays, follows.sound]
  simp [harmless, or_and_right, exists_or]

/-- A reply that tells of no step may at most lead out of a section. -/
theorem Follows.silent (follows : Follows replies s) (silent : reply.told? = none)
    (harmless : reply.cause? = none)
    (moves : t.phase.region = s.phase.region ∨
      s.phase.region = .inside ∧ t.phase.region = .between)
    (quiet : t.phase = .body → reply.isQuiet = true) : Follows (replies ++ [reply]) t where
  told := by
    have told := follows.told
    rw [told_append_of_none silent]
    rcases moves with same | ⟨inside, between⟩
    · rwa [same]
    · rw [inside] at told
      rw [between]
      exact told
  sound := by
    refine follows.sound_append harmless ?_
    rcases moves with same | ⟨inside, between⟩
    · rw [same]
    · rw [inside, between]
      exact ⟨nofun, nofun⟩
  inside body := by
    have here : s.phase = .body := by
      rcases moves with same | ⟨-, between⟩
      · rwa [region_eq_inside_iff.2 body, eq_comm, region_eq_inside_iff] at same
      · rw [body] at between
        exact Region.noConfusion between
    obtain ⟨earlier, headers, since, rfl, quietly⟩ := follows.inside here
    refine ⟨earlier, headers, since ++ [reply], by simp, ?_⟩
    intro other there
    rcases List.mem_append.1 there with before | last
    · exact quietly other before
    · rw [List.mem_singleton.1 last]
      exact quiet body

theorem Follows.preamble {bytes : Bytes} (follows : Follows replies s)
    (here : s.phase.region = .before) (moves : t.phase.region = .between) :
    Follows (replies ++ [.step (.ok (.preamble bytes))]) t where
  told := by
    have told := follows.told
    rw [here] at told
    rw [moves, told_append_of_some rfl, told]
    exact ⟨bytes, [], rfl⟩
  sound := follows.sound_append rfl (by rw [here, moves]; exact ⟨nofun, nofun⟩)
  inside body := by simp [body, Phase.region] at moves

theorem Follows.opened {headers : Headers} (follows : Follows replies s)
    (here : s.phase.region = .between ∨ s.phase.region = .inside) (moves : t.phase = .body) :
    Follows (replies ++ [.step (.ok (.opened headers))]) t where
  told := by
    have told := follows.told
    obtain ⟨preamble, sections, before⟩ : ∃ preamble, ∃ sections : List Headers,
        Multipart.told replies = .preamble preamble :: sections.map .opened := by
      rcases here with here | here <;> (rw [here] at told; exact told)
    rw [moves, told_append_of_some rfl, before]
    exact ⟨preamble, sections ++ [headers], by simp⟩
  sound := by
    refine follows.sound_append rfl ?_
    rw [moves]
    rcases here with here | here <;> (rw [here]; exact ⟨nofun, nofun⟩)
  inside _ := ⟨replies, headers, [], rfl, fun _ none => absurd none List.not_mem_nil⟩

theorem Follows.epilogue {bytes : Bytes} (follows : Follows replies s)
    (here : s.phase.region = .between ∨ s.phase.region = .inside) (moves : t.phase = .done) :
    Follows (replies ++ [.step (.ok (.epilogue bytes))]) t where
  told := by
    have told := follows.told
    obtain ⟨preamble, sections, before⟩ : ∃ preamble, ∃ sections : List Headers,
        Multipart.told replies = .preamble preamble :: sections.map .opened := by
      rcases here with here | here <;> (rw [here] at told; exact told)
    rw [moves, told_append_of_some rfl, before]
    exact ⟨preamble, sections, bytes, 0, rfl⟩
  sound := by
    refine follows.sound_append rfl ?_
    rw [moves]
    rcases here with here | here <;> (rw [here]; exact ⟨nofun, nofun⟩)
  inside body := by simp [body] at moves

theorem Follows.done (follows : Follows replies s) (here : s.phase.region = .done)
    (moves : t.phase.region = .done) : Follows (replies ++ [.step (.ok .done)]) t where
  told := by
    have told := follows.told
    rw [here] at told
    obtain ⟨preamble, sections, epilogue, n, before⟩ := told
    rw [moves, told_append_of_some rfl, before]
    exact ⟨preamble, sections, epilogue, n + 1, by simp [bodySteps, List.replicate_succ']⟩
  sound := follows.sound_append rfl (by rw [here, moves])
  inside body := by simp [body, Phase.region] at moves

theorem follows_next (follows : Follows replies s) :
    Follows (replies ++ [.step s.next.1]) s.next.2 := by
  have moves := next_moves s
  rcases step : s.next with ⟨_ | _ | bytes | headers | bytes | _, t⟩ <;> rw [step] at moves
  · rename_i failure
    exact follows_of_failed (by rw [show t.phase = .failed failure.replay from moves]; rfl)
      ⟨_, List.mem_append_right _ (List.mem_singleton.2 rfl), rfl⟩
  · exact follows.silent rfl rfl moves fun _ => rfl
  · exact follows.preamble moves.1 moves.2
  · exact follows.opened moves.1 moves.2
  · exact follows.epilogue moves.1 moves.2
  · obtain ⟨done | failed, same⟩ := moves
    · exact follows.done done (same.trans done)
    · obtain ⟨fault, there, is⟩ := follows.sound.1 failed
      exact follows_of_failed (same.trans failed) ⟨fault, List.mem_append_left _ there, is⟩

theorem follows_read (follows : Follows replies s) (room : Nat) :
    Follows (replies ++ [.portion (s.readBody room).1]) (s.readBody room).2 := by
  have moves := readBody_moves s room
  rcases read : s.readBody room with ⟨failure | _ | bytes | _, t⟩ <;> rw [read] at moves
  · refine follows_of_failed ?_ ⟨_, List.mem_append_right _ (List.mem_singleton.2 rfl), rfl⟩
    rcases moves with ⟨-, failed⟩ | ⟨cause, failed, -, rfl⟩
    · rw [failed]
      rfl
    · show t.phase.region = .failed
      rw [failed]
      rfl
  · exact follows.silent rfl rfl (.inl (by rw [moves.1, moves.2])) fun _ => rfl
  · exact follows.silent rfl rfl (.inl (by rw [moves.1, moves.2])) fun _ => rfl
  · rcases moves with ⟨body, between⟩ | ⟨outside, -, rfl⟩
    · refine follows.silent rfl rfl (.inr ⟨region_eq_inside_iff.2 body, between⟩) fun body' => ?_
      rw [show t.phase = .body from body'] at between
      exact Region.noConfusion between
    · exact follows.silent rfl rfl (.inl rfl) fun body => absurd (region_eq_inside_iff.2 body) outside

/-- One operation keeps what the replies say of the scanner. -/
theorem follows_perform (follows : Follows replies s) (operation : Operation) :
    Follows (replies ++ [(s.perform operation).1]) (s.perform operation).2 := by
  cases operation with
  | feed chunk =>
    have same : (s.feed chunk).phase = s.phase := s.phase_feed chunk
    exact follows.silent rfl rfl (.inl (congrArg Phase.region same)) fun _ => rfl
  | finish => exact follows.silent rfl rfl (.inl rfl) fun _ => rfl
  | abort failure =>
    exact follows_of_failed rfl ⟨_, List.mem_append_right _ (List.mem_singleton.2 rfl), rfl⟩
  | next => exact follows_next follows
  | read room => exact follows_read follows room

/-! ## Any number of operations -/

/-- So does any sequence of operations. -/
theorem follows_operations (follows : Follows replies s) (operations : List Operation) :
    Follows (replies ++ s.replies operations) (s.after operations) := by
  induction operations generalizing s replies with
  | nil =>
    rw [Scanner.replies, List.append_nil]
    exact follows
  | cons operation later ih =>
    have onward := ih (follows_perform follows operation)
    rw [List.append_assoc] at onward
    exact onward

/-- Replies come one by one, so the first ones are those to the first operations. -/
theorem operations_of_append {before later : List Reply}
    (split : s.replies operations = before ++ later) :
    ∃ first others, s.replies first = before ∧ (s.after first).replies others = later := by
  induction before generalizing s operations with
  | nil => exact ⟨[], operations, rfl, split⟩
  | cons reply before ih =>
    cases operations with
    | nil => exact absurd split (by simp [Scanner.replies])
    | cons operation later =>
      rw [Scanner.replies, List.cons_append, List.cons.injEq] at split
      obtain ⟨first, others, same, rest⟩ := ih split.2
      exact ⟨operation :: first, others, by rw [Scanner.replies, split.1, same], rest⟩

/-- The operation that a reply answers. -/
theorem operation_of_cons {later : List Reply} (split : s.replies operations = reply :: later) :
    ∃ operation others, (s.perform operation).1 = reply ∧
      (s.perform operation).2.replies others = later := by
  cases operations with
  | nil => exact absurd split (by simp [Scanner.replies])
  | cons operation others =>
    rw [Scanner.replies, List.cons.injEq] at split
    exact ⟨operation, others, split⟩

end FollowsLemmas

/-! ## Behind a failure and behind a section -/

section RunLemmas

variable {s : Scanner} {operation : Operation} {operations : List Operation}
  {cause failure : Failure}

/-- An operation that reports a failure leaves the scanner stopped by it. -/
theorem perform_cause (fault : (s.perform operation).1.cause? = some failure) :
    ∃ cause, (s.perform operation).2.phase = .failed cause ∧ cause.replay = failure.replay := by
  cases operation with
  | feed chunk => exact absurd fault nofun
  | finish => exact absurd fault nofun
  | abort other =>
    obtain rfl : other = failure := Option.some.inj fault
    exact ⟨other.replay, rfl, other.replay_replay⟩
  | next =>
    have moves := next_moves s
    simp only [perform] at fault ⊢
    rcases step : s.next with ⟨found | _, t⟩ <;> rw [step] at moves fault
    · obtain rfl : found = failure := Option.some.inj fault
      exact ⟨found.replay, moves, found.replay_replay⟩
    · exact absurd fault nofun
  | read room =>
    have moves := readBody_moves s room
    simp only [perform] at fault ⊢
    rcases read : s.readBody room with ⟨found | _, t⟩ <;> rw [read] at moves fault
    · obtain rfl : found = failure := Option.some.inj fault
      rcases moves with ⟨-, failed⟩ | ⟨cause, failed, rfl, rfl⟩
      · exact ⟨found.replay, failed, found.replay_replay⟩
      · exact ⟨cause, failed, cause.replay_replay.symm⟩
    · exact absurd fault nofun

/-- A scanner that was stopped stays so, for the same cause unless it is stopped again. -/
theorem perform_of_failed (failed : s.phase = .failed cause) (operation : Operation) :
    ((s.perform operation).1.isAbort = false → (s.perform operation).2.phase = .failed cause) ∧
      (s.perform operation).2.phase.region = .failed := by
  have dead : s.phase.isLive = false := by
    rw [failed]
    rfl
  have here : s.phase.region = .failed := by
    rw [failed]
    rfl
  cases operation with
  | feed chunk =>
    have same := s.phase_feed chunk
    exact ⟨fun _ => same.trans failed, (congrArg Phase.region same).trans here⟩
  | finish => exact ⟨fun _ => failed, here⟩
  | abort failure => exact ⟨nofun, rfl⟩
  | next =>
    simp only [perform, next_of_dead dead]
    exact ⟨fun _ => failed, here⟩
  | read room =>
    have same : (s.readBody room).2 = s := by simp only [readBody, failed]
    simp only [perform, same]
    exact ⟨fun _ => failed, here⟩

/-- It is stopped behind any sequence of operations. -/
theorem after_of_failed (failed : s.phase.region = .failed) (operations : List Operation) :
    (s.after operations).phase.region = .failed := by
  induction operations generalizing s with
  | nil => exact failed
  | cons operation later ih =>
    obtain ⟨cause, stopped⟩ := region_eq_failed_iff.1 failed
    exact ih (perform_of_failed stopped operation).2

/-- And for the same cause, as long as it is not stopped again. -/
theorem after_of_cause (failed : s.phase = .failed cause)
    (spared : ∀ reply ∈ s.replies operations, reply.isAbort = false) :
    (s.after operations).phase = .failed cause := by
  induction operations generalizing s with
  | nil => exact failed
  | cons operation later ih =>
    refine ih ((perform_of_failed failed operation).1 (spared _ List.mem_cons_self)) ?_
    exact fun reply there => spared reply (List.mem_cons_of_mem _ there)

/-- Nothing but the beginning of a section leads into one, and nothing but a failure stops. -/
theorem perform_outside (outside : s.phase.region ≠ .inside) (whole : s.phase.region ≠ .failed)
    (harmless : (s.perform operation).1.cause? = none)
    (unopened : (s.perform operation).1.isOpening = false) :
    (s.perform operation).2.phase.region ≠ .inside ∧
      (s.perform operation).2.phase.region ≠ .failed := by
  cases operation with
  | feed chunk =>
    have same : (s.feed chunk).phase = s.phase := s.phase_feed chunk
    simp only [perform, same]
    exact ⟨outside, whole⟩
  | finish => exact ⟨outside, whole⟩
  | abort failure => exact absurd harmless nofun
  | next =>
    have moves := next_moves s
    simp only [perform] at harmless unopened ⊢
    rcases step : s.next with ⟨_ | _ | bytes | headers | bytes | _, t⟩ <;>
      rw [step] at moves harmless unopened
    · exact absurd harmless nofun
    · rcases moves with same | ⟨inside, -⟩
      · rw [same]
        exact ⟨outside, whole⟩
      · exact absurd inside outside
    · rw [moves.2]
      exact ⟨nofun, nofun⟩
    · exact absurd unopened nofun
    · rw [show t.phase = .done from moves.2]
      exact ⟨nofun, nofun⟩
    · rw [moves.2]
      exact ⟨outside, whole⟩
  | read room =>
    have moves := readBody_moves s room
    simp only [perform] at harmless ⊢
    rcases read : s.readBody room with ⟨failure | _ | bytes | _, t⟩ <;> rw [read] at moves harmless
    · exact absurd harmless nofun
    · exact absurd (region_eq_inside_iff.2 moves.1) outside
    · exact absurd (region_eq_inside_iff.2 moves.1) outside
    · rcases moves with ⟨body, -⟩ | ⟨-, -, rfl⟩
      · exact absurd (region_eq_inside_iff.2 body) outside
      · exact ⟨outside, whole⟩

theorem after_outside (outside : s.phase.region ≠ .inside) (whole : s.phase.region ≠ .failed)
    (spared : ∀ reply ∈ s.replies operations, reply.cause? = none ∧ reply.isOpening = false) :
    (s.after operations).phase.region ≠ .inside ∧ (s.after operations).phase.region ≠ .failed := by
  induction operations generalizing s with
  | nil => exact ⟨outside, whole⟩
  | cons operation later ih =>
    obtain ⟨harmless, unopened⟩ := spared _ List.mem_cons_self
    obtain ⟨outside, whole⟩ := perform_outside outside whole harmless unopened
    exact ih outside whole fun reply there => spared reply (List.mem_cons_of_mem _ there)

end RunLemmas

/-! ## A new scanner -/

section NewLemmas

variable {s t : Scanner} {operations : List Operation} {reply : Reply}
  {replies before later : List Reply}

theorem follows_new (boundary : Boundary) (charset : Charset) (limits : Limits) :
    Follows [] (new boundary charset limits) where
  told := rfl
  sound := ⟨nofun, nofun⟩
  inside := nofun

/-- The scanner that gives a reply follows from the replies before it. -/
theorem Follows.at_reply (follows : Follows [] s)
    (split : s.replies operations = before ++ reply :: later) :
    ∃ t operation others, Follows before t ∧ (t.perform operation).1 = reply ∧
      (t.perform operation).2.replies others = later := by
  obtain ⟨first, rest, rfl, onward⟩ := operations_of_append split
  obtain ⟨operation, others, given, onward⟩ := operation_of_cons onward
  exact ⟨s.after first, operation, others, follows_operations follows first, given, onward⟩

/-- Without a failure so far, the steps that were told are the first ones of a body. -/
theorem Follows.order (follows : Follows replies s)
    (harmless : ∀ reply ∈ replies, reply.cause? = none) :
    ∃ preamble sections epilogue n,
      Multipart.told replies <+: bodySteps preamble sections epilogue n := by
  have told := follows.told
  cases here : s.phase.region with
  | before =>
    rw [here] at told
    rw [told]
    exact ⟨[], [], [], 0, List.nil_prefix⟩
  | between | inside =>
    rw [here] at told
    obtain ⟨preamble, sections, told⟩ := told
    rw [told]
    refine ⟨preamble, sections, [], 0, List.cons_prefix_cons.2 ⟨rfl, List.prefix_append _ _⟩⟩
  | done =>
    rw [here] at told
    obtain ⟨preamble, sections, epilogue, n, told⟩ := told
    rw [told]
    exact ⟨preamble, sections, epilogue, n, List.prefix_rfl⟩
  | failed =>
    obtain ⟨fault, there, is⟩ := follows.sound.1 here
    rw [harmless fault there] at is
    exact absurd is nofun

/-- A stopped scanner answers no step. -/
theorem step_of_failed {result : Except Failure Step} (failed : s.phase.region = .failed)
    (there : .step result ∈ s.replies operations) : result = .ok .done := by
  obtain ⟨before, later, split⟩ := List.append_of_mem there
  obtain ⟨first, rest, -, onward⟩ := operations_of_append split
  obtain ⟨operation, others, given, -⟩ := operation_of_cons onward
  obtain ⟨cause, stopped⟩ := region_eq_failed_iff.1 (after_of_failed failed first)
  have dead : (s.after first).phase.isLive = false := by
    rw [stopped]
    rfl
  cases operation with
  | next =>
    rw [perform, next_of_dead dead] at given
    exact (Reply.step.inj given).symm
  | feed | finish | abort | read => exact absurd given nofun

/-- Only a scanner inside a section gives content. -/
theorem body_of_data {operation : Operation} {bytes : Bytes}
    (given : (s.perform operation).1 = .portion (.ok (.data bytes))) : s.phase = .body := by
  cases operation with
  | read room =>
    have moves := readBody_moves s room
    have read : (s.readBody room).1 = .ok (.data bytes) := Reply.portion.inj given
    rcases answer : s.readBody room with ⟨result, t⟩
    rw [answer] at moves read
    subst read
    exact moves.1
  | feed | finish | abort | next => exact absurd given nofun

/-- A scanner that says that a section has ended is not inside of one then. -/
theorem outside_of_finished {operation : Operation}
    (given : (s.perform operation).1 = .portion (.ok .finished)) :
    (s.perform operation).2.phase.region ≠ .inside ∧
      (s.perform operation).2.phase.region ≠ .failed := by
  cases operation with
  | read room =>
    have moves := readBody_moves s room
    have read : (s.readBody room).1 = .ok .finished := Reply.portion.inj given
    rw [perform]
    rcases answer : s.readBody room with ⟨result, t⟩
    rw [answer] at moves read
    subst read
    rcases moves with ⟨-, between⟩ | ⟨outside, whole, rfl⟩
    · rw [between]
      exact ⟨nofun, nofun⟩
    · exact ⟨outside, whole⟩
  | feed | finish | abort | next => exact absurd given nofun

/-- Outside of a section there is no content. -/
theorem finished_of_outside {operation : Operation} {result : Except Failure Portion}
    (outside : s.phase.region ≠ .inside) (whole : s.phase.region ≠ .failed)
    (given : (s.perform operation).1 = .portion result) : result = .ok .finished := by
  cases operation with
  | read room =>
    have moves := readBody_moves s room
    have read : (s.readBody room).1 = result := Reply.portion.inj given
    rcases answer : s.readBody room with ⟨_ | _ | _ | _, t⟩ <;> rw [answer] at moves read
    · rcases moves with ⟨body, -⟩ | ⟨cause, failed, -⟩
      · exact absurd (region_eq_inside_iff.2 body) outside
      · exact absurd (region_eq_failed_iff.2 ⟨cause, failed⟩) whole
    · exact absurd (region_eq_inside_iff.2 moves.1) outside
    · exact absurd (region_eq_inside_iff.2 moves.1) outside
    · exact read.symm
  | feed | finish | abort | next => exact absurd given nofun

/-- What a stopped scanner answers to a read. -/
theorem error_of_failed {operation : Operation} {result : Except Failure Portion} {cause : Failure}
    (failed : s.phase = .failed cause) (given : (s.perform operation).1 = .portion result) :
    result = .error cause.replay := by
  cases operation with
  | read room =>
    rw [perform, readBody, failed] at given
    exact (Reply.portion.inj given).symm
  | feed | finish | abort | next => exact absurd given nofun

/-- The replies of a new scanner keep to the protocol, whatever is done with it and in whatever
order. -/
theorem replies_orderly (boundary : Boundary) (charset : Charset) (limits : Limits)
    (operations : List Operation) :
    Orderly ((new boundary charset limits).replies operations) where
  order split harmless := by
    obtain ⟨first, others, rfl, -⟩ := operations_of_append split
    exact (follows_operations (follows_new boundary charset limits) first).order harmless
  stopped split fault there := by
    obtain ⟨t, operation, others, -, rfl, rfl⟩ :=
      (follows_new boundary charset limits).at_reply split
    obtain ⟨failure, reported⟩ := Option.isSome_iff_exists.1 fault
    obtain ⟨cause, failed, -⟩ := perform_cause reported
    exact step_of_failed (region_eq_failed_iff.2 ⟨cause, failed⟩) there
  content split := by
    obtain ⟨t, operation, others, follows, given, -⟩ :=
      (follows_new boundary charset limits).at_reply split
    exact follows.inside (body_of_data given)
  ended split spared := by
    obtain ⟨t, operation, others, -, given, onward⟩ :=
      (follows_new boundary charset limits).at_reply split
    obtain ⟨outside, whole⟩ := outside_of_finished given
    obtain ⟨first, rest, rfl, behind⟩ := operations_of_append onward
    obtain ⟨reading, _, read, -⟩ := operation_of_cons behind
    obtain ⟨outside, whole⟩ := after_outside outside whole spared
    exact finished_of_outside outside whole read
  repeated split fault spared := by
    obtain ⟨t, operation, others, -, rfl, onward⟩ :=
      (follows_new boundary charset limits).at_reply split
    obtain ⟨cause, failed, same⟩ := perform_cause fault
    obtain ⟨first, rest, rfl, behind⟩ := operations_of_append onward
    obtain ⟨reading, _, read, -⟩ := operation_of_cons behind
    have repeats := error_of_failed (after_of_cause failed spared) read
    exact ⟨cause.replay, repeats, Failure.alike_of_replay (cause.replay_replay.trans same)⟩

end NewLemmas

end Scanner

end HttpForms.Multipart
