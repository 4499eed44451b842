import HttpForms.Proofs.Reader.Ending
import HttpForms.Proofs.Reader.PlainScripts

/-!
# What a failed section says again

A reader that has stopped stays stopped, and it does not matter what is done with its section: polling
it, in whatever way, reports the same cause each time. What is reported first is the failure itself,
and what is reported again is a copy of it. The copy keeps everything but what is behind an error of
the source. So the two differ for whoever looks behind such an error, and this is what happens in a
body nested in a section of a body that is cut short.

Results:

1. `Reader.kept_stopped` — whoever polls a stopped reader leaves it stopped;
2. `Reader.failure_repeats` — behind a read that fails every read fails, with a copy of the failure;
3. `Reader.nested_failure_differs` — in a nested body the copy is not what was reported first.
-/

namespace HttpForms.Multipart

/-- The failure that came of reading, where one did. What a stream carries is taken out of it. -/
def Outcome.failure? : Outcome → Option Failure
  | .all (.error failure) | .text (.error failure) | .skipped (.error failure) => some failure
  | .portion (.error error) | .toEnd _ (.error error) => some (.ofStream error)
  | _ => none

/-- The action reads content of the section itself. Without room nothing is read, and a nested body
has a record of its own. -/
def Action.Reads : Action → Prop
  | .portion room => 0 < room
  | action => action.Whole

namespace Reader

variable {σ : Type} [ByteSource σ]

/-- The reader has stopped, and says again what is said again of `failure`. -/
def Stopped (failure : Failure) (r : Reader σ) : Prop :=
  ∃ cause, r.scanner.phase = .failed cause ∧ cause.replay = failure.replay

section StoppedLemmas

variable {mode : Mode} {r t : Reader σ} {room : Nat} {failure : Failure} {content : Content}

omit [ByteSource σ] in
theorem Stopped.dead (stopped : r.Stopped failure) : r.scanner.phase.isLive = false := by
  obtain ⟨cause, phase, -⟩ := stopped
  rw [phase]
  rfl

/-- Nothing that a reader does makes a stopped one go on. -/
theorem kept_stopped (failure : Failure) : Kept (σ := σ) (Stopped failure) where
  step {r result s} stopped step := by
    have still := Scanner.next_of_dead stopped.dead
    rw [step] at still
    obtain ⟨-, rfl⟩ := Prod.mk.inj still
    exact stopped
  content {r room result s} stopped read := by
    have still := Scanner.readBody_of_dead stopped.dead room
    rw [read] at still
    obtain rfl : s = r.scanner := still
    exact stopped
  data stopped _ live _ := absurd (stopped.dead.symm.trans live) Bool.noConfusion
  failed stopped _ live _ := absurd (stopped.dead.symm.trans live) Bool.noConfusion
  again stopped _ live _ _ := absurd (stopped.dead.symm.trans live) Bool.noConfusion

/-! ## The first report -/

theorem ask_stops (failed : r.ask mode = (.ready (.error failure), t)) : t.Stopped failure := by
  fun_induction Reader.ask mode r with
  | case1 mode r bytes source asked => cases failed
  | case2 mode r error source asked =>
    cases failed
    exact ⟨_, rfl, Failure.replay_replay _⟩
  | case3 mode r source asked ih => exact ih failed
  | case4 r source asked ih => exact ih failed
  | case5 r source asked => cases failed

/-- A poll that fails stops the reader. -/
theorem poll_stops (failed : r.poll mode room = (.ready (.error failure), t)) :
    t.Stopped failure := by
  fun_induction Reader.poll mode r room with
  | case1 r => cases failed
  | case2 r _ bytes s read => cases failed
  | case3 r _ s read => cases failed
  | case4 r _ failure' s read =>
    cases failed
    have moves := Scanner.readBody_moves r.scanner room
    rw [read] at moves
    rcases moves with ⟨-, phase⟩ | ⟨cause, phase, rfl, rfl⟩
    · exact ⟨_, phase, Failure.replay_replay _⟩
    · exact ⟨cause, phase, (Failure.replay_replay _).symm⟩
  | case5 r _ s read t' asked ih => exact ih failed
  | case6 r _ s read failure' t' asked =>
    cases failed
    exact ask_stops asked
  | case7 r _ s read t' asked => cases failed

theorem read_stops (failed : r.read mode room = (.error failure, t)) : t.Stopped failure := by
  fun_induction Reader.read mode r room with
  | case1 r result t' polled =>
    cases failed
    exact poll_stops polled
  | case2 r t' polled ih => exact ih failed

theorem drain_stops (failed : r.drain mode = (content, t)) (cause : content.failure = some failure) :
    t.Stopped failure := by
  fun_induction Reader.drain mode r generalizing content with
  | case1 r t' read =>
    cases failed
    cases cause
  | case2 r b bytes t' read rest u drained ih =>
    cases failed
    exact ih drained cause
  | case3 r failure' t' read =>
    cases failed
    cases cause
    exact read_stops read

/-! ## Every later report -/

theorem Stopped.poll (stopped : r.Stopped failure) (space : 0 < room) :
    r.poll mode room = (.ready (.error failure.replay), r) := by
  obtain ⟨cause, phase, same⟩ := stopped
  have read : r.scanner.readBody room = (.error failure.replay, r.scanner) := by
    rw [← same, Scanner.readBody, phase]
  rw [poll_step mode r space, read]

theorem Stopped.read (stopped : r.Stopped failure) (space : 0 < room) :
    r.read mode room = (.error failure.replay, r) := by
  rw [read_step, stopped.poll space]

theorem Stopped.drain (stopped : r.Stopped failure) :
    r.drain mode = (⟨[], some failure.replay⟩, r) := by
  rw [drain_step, stopped.read (by decide)]

end StoppedLemmas

/-! ## Every way of reading -/

section ActionLemmas

variable {mode : Mode} {r t : Reader σ} {action : Action} {headers : Headers} {outcome : Outcome}
  {failure : Failure} {cause : Failure}

/-- What is said again comes out of a stream as it is. -/
theorem report_replay (mode : Mode) (failure : Failure) :
    mode.report failure.replay = failure.replay := by
  cases mode with
  | blocking => rfl
  | polled => exact Failure.survives_replay failure

/-- What is told of a whole section has failed where draining it has. -/
theorem failure?_told {charset : Charset} {content : Content}
    (told : action.told mode charset content = [outcome]) (failed : outcome.failure? = some failure) :
    ∃ cause, content.failure = some cause ∧ (failure = cause ∨ failure = .ofStream cause.toStream) := by
  obtain ⟨bytes, _ | cause⟩ := content
  · cases action <;> cases told <;> cases failed
  · refine ⟨cause, rfl, ?_⟩
    cases action with
    | all | text | skip =>
      cases told
      cases failed
      cases mode with
      | blocking => exact .inl rfl
      | polled => exact .inr rfl
    | toEnd =>
      cases told
      cases failed
      exact .inr rfl
    | portion | nested => cases told

/-- A read that fails has stopped the reader, and what it reports went through a stream at most. -/
theorem visit_stops (reads : action.Reads)
    (visited : (action.visitor mode).visit headers r = ([outcome], t))
    (failed : outcome.failure? = some failure) :
    ∃ cause, t.Stopped cause ∧ (failure = cause ∨ failure = .ofStream cause.toStream) := by
  have drained (whole : action.Whole) :
      ∃ cause, t.Stopped cause ∧ (failure = cause ∨ failure = .ofStream cause.toStream) := by
    rw [whole.visit_eq] at visited
    obtain ⟨told, rfl⟩ := Prod.mk.inj visited
    obtain ⟨cause, stops, report⟩ := failure?_told told failed
    exact ⟨cause, drain_stops rfl stops, report⟩
  cases action with
  | portion room =>
    simp only [Action.visitor, Visitor.portion, readSome] at visited
    rcases read : r.read mode room with ⟨cause | bytes, u⟩ <;> rw [read] at visited <;>
      cases visited <;> cases failed
    exact ⟨cause, read_stops read, .inr rfl⟩
  | all | text | toEnd | skip | nested => exact drained reads

/-- A stopped reader reports the same again, however it is read. -/
theorem visit_of_stopped (reads : action.Reads) (stopped : r.Stopped failure) :
    ∃ outcome, (action.visitor mode).visit headers r = ([outcome], r) ∧
      outcome.failure? = some failure.replay := by
  have drained (whole : action.Whole) : (action.visitor mode).visit headers r =
      (action.told mode r.charset ⟨[], some failure.replay⟩, r) := by
    rw [whole.visit_eq, stopped.drain]
  cases action with
  | portion room =>
    refine ⟨.portion (.error failure.replay.toStream), ?_, ?_⟩
    · simp [Action.visitor, Visitor.portion, readSome, stopped.read reads, Except.mapError]
    · exact congrArg some (Failure.survives_replay failure)
  | all | text | skip => exact ⟨_, drained reads, congrArg some (report_replay mode failure)⟩
  | toEnd => exact ⟨_, drained reads, congrArg some (Failure.survives_replay failure)⟩
  | nested plan => exact reads.elim

/-- Behind a read that fails every read fails, in whatever way the section is read and whatever was
done with it in between. Each time the same copy of the failure is reported. It is the failure of the
first report, with its limit, or the kind and the text of the source's error, unless that error came
with the failure of a body behind it: then the first report may be of what is behind, and the copy is
not. -/
theorem failure_repeats (reads : action.Reads)
    (visited : (action.visitor mode).visit headers r = ([outcome], t))
    (failed : outcome.failure? = some failure) :
    ∃ cause, (failure = cause ∨ failure = .ofStream cause.toStream) ∧
      (∀ (between : List Action) (later : Action), later.Reads →
        ∃ again, ((later.visitor mode).visit headers
            ((Action.sequence mode between).visit headers t).2).1 = [again] ∧
          again.failure? = some cause.replay) ∧
      ((∀ kind behind, cause ≠ .source (.carrying kind behind)) →
        cause.replay.Alike failure ∧ cause.replay.isStructural = failure.isStructural) ∧
      ∀ kind behind, cause = .source (.carrying kind behind) →
        (failure = cause ∨ failure = behind) ∧
          cause.replay = .source (.described kind behind.message) := by
  obtain ⟨cause, stopped, report⟩ := visit_stops reads visited failed
  refine ⟨cause, report, ?_, ?_, ?_⟩
  · intro between later reads'
    have still : (((Action.sequence mode between).visit headers t).2).Stopped cause :=
      (Action.keeps_sequence mode between).visit ((kept_stopped cause).poll mode) headers t stopped
    obtain ⟨again, visited', failed'⟩ : ∃ again, (later.visitor mode).visit headers
        ((Action.sequence mode between).visit headers t).2 = ([again], _) ∧
          again.failure? = some cause.replay := visit_of_stopped reads' still
    exact ⟨again, congrArg Prod.fst visited', failed'⟩
  · intro bare
    have survives : failure = cause := by
      rcases report with same | same
      · exact same
      · rw [same]
        cases cause with
        | source error =>
          cases error with
          | carrying kind behind => exact absurd rfl (bare kind behind)
          | plain | described | wrapping => rfl
        | _ => rfl
    rw [survives]
    exact ⟨Failure.alike_of_replay (Failure.replay_replay cause), Failure.isStructural_replay cause⟩
  · rintro kind behind rfl
    exact ⟨report, rfl⟩

end ActionLemmas

/-- A body that is cut short, in the section of a body that is cut short with it. -/
def cutShort : Script :=
  ⟨[.data (Utf8.encode
    "--o\r\nContent-Type: multipart/mixed; boundary=i\r\n\r\n--i\r\n\r\nabcd")]⟩

/-- A reader at the section of the outer body. -/
def atOuter : Reader Script :=
  (opened cutShort ⟨"o", by decide⟩ .utf8 .default).behind .blocking [.event, .event]

/-- A reader at the section of the inner body. -/
def atInner : Reader (Section .blocking Script) :=
  (opened ⟨atOuter⟩ ⟨"i", by decide⟩ .utf8 .default).behind .blocking [.event, .event]

theorem failure_repeats_sample :
    ∃ cause, (Failure.unterminatedBody = cause ∨
        Failure.unterminatedBody = Failure.ofStream cause.toStream) ∧
      ∃ again, ((Action.text.visitor .blocking).visit ⟨[]⟩
          ((Action.sequence .blocking [.portion 0, .all]).visit ⟨[]⟩
            (atOuter.readToEnd .blocking).2).2).1 = [again] ∧
        again.failure? = some cause.replay := by
  have visited : (Action.toEnd.visitor .blocking).visit ⟨[]⟩ atOuter =
      ([.toEnd (atOuter.readToEnd .blocking).1.1 (atOuter.readToEnd .blocking).1.2],
        (atOuter.readToEnd .blocking).2) := rfl
  have failed : (Outcome.toEnd (atOuter.readToEnd .blocking).1.1
      (atOuter.readToEnd .blocking).1.2).failure? = some .unterminatedBody := by decide +kernel
  have reads : Action.toEnd.Reads := trivial
  obtain ⟨cause, report, repeats, -⟩ := failure_repeats reads visited failed
  exact ⟨cause, report, repeats [.portion 0, .all] .text trivial⟩

/-- In a nested body the first report is of the failure behind the error of the source, and the second
one is of that error. -/
theorem nested_failure_differs :
    ((Action.sequence .blocking [.portion 1, .portion 1]).visit ⟨[]⟩ atInner).1.map
        Outcome.failure? =
      [some .unterminatedBody, some (.source (.described .invalidData
        "end of stream before the closing boundary"))] ∧
      ¬ Failure.unterminatedBody.Alike (.source (.described .invalidData
        "end of stream before the closing boundary")) :=
  ⟨by decide +kernel, nofun⟩

end Reader

end HttpForms.Multipart
