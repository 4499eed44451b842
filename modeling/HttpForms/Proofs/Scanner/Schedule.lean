import HttpForms.Proofs.Scanner.Content

/-!
# Schedules

Whoever uses a scanner decides how the input is cut, when it is fed, how much content is read at a
time and whether a section is read at all. What the scanner tells of the body depends on none of this:
by `next_tells` and `readBody_yields` every call keeps what is foreseen, so any run that comes to the
end has told the items of the one parse of the input.

Result: `schedule_independent` — two runs over the same input tell the same.
-/

namespace HttpForms.Multipart

/-! ## Runs -/

/-- A call of a scanner. -/
inductive Call
  | feed (chunk : Bytes)
  | finish
  | next
  /-- Reads content, with room for so many octets. -/
  | read (room : Nat)
  deriving DecidableEq, Repr

/-- What a scanner answers. -/
inductive Answer
  | step (result : Except Failure Step)
  | portion (result : Except Failure Portion)
  deriving DecidableEq, Repr

/-- The answers of a scanner to calls. -/
def Scanner.answers (s : Scanner) : List Call → List Answer
  | [] => []
  | .feed chunk :: calls => (s.feed chunk).answers calls
  | .finish :: calls => s.finish.answers calls
  | .next :: calls => .step s.next.1 :: s.next.2.answers calls
  | .read room :: calls => .portion (s.readBody room).1 :: (s.readBody room).2.answers calls

/-- The calls feed the input in order, end it only behind its last octet, and leave room whenever they
read. -/
def Feeds : Bytes → List Call → Prop
  | _, [] => True
  | input, .feed chunk :: calls => chunk <+: input ∧ Feeds (input.drop chunk.length) calls
  | input, .finish :: calls => input = [] ∧ Feeds [] calls
  | input, .next :: calls => Feeds input calls
  | input, .read room :: calls => 0 < room ∧ Feeds input calls

instance decidableFeeds : (input : Bytes) → (calls : List Call) → Decidable (Feeds input calls)
  | _, [] => isTrue trivial
  | input, .feed chunk :: calls =>
    have := decidableFeeds (input.drop chunk.length) calls
    inferInstanceAs (Decidable (_ ∧ _))
  | _, .finish :: calls =>
    have := decidableFeeds [] calls
    inferInstanceAs (Decidable (_ ∧ _))
  | input, .next :: calls => decidableFeeds input calls
  | input, .read _ :: calls =>
    have := decidableFeeds input calls
    inferInstanceAs (Decidable (_ ∧ _))

/-! ## What a run tells -/

/-- What is told of a body, apart from its content. -/
@[ext]
structure Report where
  preambles : List Bytes
  openings : List Headers
  epilogues : List Bytes
  /-- The first failure. -/
  failure : Option Failure
  deriving DecidableEq, Repr

/-- What the answers tell. -/
def report (answers : List Answer) : Report where
  preambles := answers.filterMap fun
    | .step (.ok (.preamble bytes)) => some bytes
    | _ => none
  openings := answers.filterMap fun
    | .step (.ok (.opened headers)) => some headers
    | _ => none
  epilogues := answers.filterMap fun
    | .step (.ok (.epilogue bytes)) => some bytes
    | _ => none
  failure := answers.findSome? fun
    | .step (.error failure) | .portion (.error failure) => some failure
    | _ => none

/-- The content that the answers give, if they read on to the end of it. -/
def drain : List Answer → Option Bytes
  | .portion (.ok (.data bytes)) :: answers => (drain answers).map (bytes ++ ·)
  | .portion (.ok .needInput) :: answers => drain answers
  | .portion (.ok .finished) :: _ | .portion (.error _) :: _ => some []
  | .step _ :: _ | [] => none

/-- For each section its content, if it was read to the end. -/
def drains : List Answer → List (Option Bytes)
  | [] => []
  | .step (.ok (.opened _)) :: answers => drain answers :: drains answers
  | _ :: answers => drains answers

/-! ## What the items foretell -/

/-- What there is to tell of the items. -/
def foretold (items : List Item) : Report where
  preambles := items.filterMap fun
    | .preamble bytes => some bytes
    | _ => none
  openings := items.filterMap fun
    | .opened headers => some headers
    | _ => none
  epilogues := items.filterMap fun
    | .epilogue bytes => some bytes
    | _ => none
  failure := items.findSome? fun
    | .failed failure => some failure
    | _ => none

/-- The contents of the sections that open. -/
def contents : List Item → List Bytes
  | [] => []
  | .opened _ :: .content bytes :: more => bytes :: contents more
  | _ :: more => contents more

theorem foretold_pastContent (items : List Item) : foretold (pastContent items) = foretold items := by
  unfold pastContent
  split <;> rfl

theorem contents_pastContent (items : List Item) : contents (pastContent items) = contents items := by
  unfold pastContent
  split
  · rw [contents]
    simp
  · rfl

/-- The answers tell of the items all there is to tell, and of no content anything else. -/
structure Confirms (items : List Item) (answers : List Answer) : Prop where
  report : report answers = foretold items
  drains : ∀ {i : Nat} {bytes}, (drains answers)[i]? = some (some bytes) →
    (contents items)[i]? = some bytes

section ConfirmsLemmas

variable {items items' more : List Item} {answers : List Answer} {content : Bytes}

theorem Confirms.of_pastContent (confirms : Confirms items answers)
    (same : pastContent items' = pastContent items) : Confirms items' answers where
  report := by rw [confirms.report, ← foretold_pastContent items, ← same, foretold_pastContent]
  drains read := by
    rw [← contents_pastContent, same, contents_pastContent]
    exact confirms.drains read

/-- A step that is foreseen tells one item, and it opens no section. -/
theorem Confirms.preamble {bytes : Bytes} (confirms : Confirms more answers) :
    Confirms (.preamble bytes :: more) (.step (.ok (.preamble bytes)) :: answers) where
  report := by
    have told := confirms.report
    simp only [Multipart.report, foretold, Report.mk.injEq] at told ⊢
    simp [told]
  drains := confirms.drains

theorem Confirms.epilogue {bytes : Bytes} (confirms : Confirms more answers) :
    Confirms (.epilogue bytes :: more) (.step (.ok (.epilogue bytes)) :: answers) where
  report := by
    have told := confirms.report
    simp only [Multipart.report, foretold, Report.mk.injEq] at told ⊢
    simp [told]
  drains := confirms.drains

theorem Confirms.opened {headers : Headers} (confirms : Confirms (.content content :: more) answers)
    (whole : ∀ {bytes}, drain answers = some bytes → bytes = content) :
    Confirms (.opened headers :: .content content :: more)
      (.step (.ok (.opened headers)) :: answers) where
  report := by
    have told := confirms.report
    simp only [Multipart.report, foretold, Report.mk.injEq] at told ⊢
    simpa using told
  drains {i bytes} read := by
    cases i with
    | zero =>
      simp only [Multipart.drains, List.getElem?_cons_zero, Option.some.injEq] at read
      rw [whole read]
      rfl
    | succ i => exact confirms.drains read

theorem Confirms.failed {failure : Failure} {answer : Answer}
    (told : Multipart.report (answer :: answers) = ⟨[], [], [], some failure⟩)
    (none : Multipart.drains (answer :: answers) = []) :
    Confirms [.failed failure] (answer :: answers) where
  report := told
  drains read := by simp [none] at read

end ConfirmsLemmas

namespace Scanner

variable {s : Scanner} {rest input : Bytes} {items : List Item} {calls : List Call}

/-- Behind the end or a failure nothing is told any more. -/
theorem report_of_dead (dead : s.phase.isLive = false) (calls : List Call) :
    (report (s.answers calls)).preambles = [] ∧ (report (s.answers calls)).openings = [] ∧
      (report (s.answers calls)).epilogues = [] ∧ drains (s.answers calls) = [] := by
  induction calls generalizing s with
  | nil => exact ⟨rfl, rfl, rfl, rfl⟩
  | cons call calls ih =>
    cases call with
    | feed chunk => exact ih (by rw [phase_feed]; exact dead)
    | finish => exact @ih s.finish dead
    | next =>
      rw [answers, next_of_dead dead]
      exact ih dead
    | read room =>
      have same : (s.readBody room).2 = s :=
        readBody_outside fun body => by simp [body, Phase.isLive] at dead
      rw [answers, same]
      exact ih dead

/-- Behind the end there is no failure either. -/
theorem failure_of_done (done : s.phase = .done) (calls : List Call) :
    (report (s.answers calls)).failure = none := by
  induction calls generalizing s with
  | nil => rfl
  | cons call calls ih =>
    cases call with
    | feed chunk => exact ih (by rw [phase_feed]; exact done)
    | finish => exact @ih s.finish done
    | next =>
      rw [answers, next_of_dead (by rw [done]; rfl)]
      exact ih done
    | read room =>
      have same : s.readBody room = (.ok .finished, s) := by
        unfold readBody
        simp [done]
      rw [answers, same]
      exact ih done

theorem report_of_failed {cause : Failure} (failed : s.phase = .failed cause) (failure : Failure)
    (calls : List Call) :
    report (.step (.error failure) :: s.answers calls) = ⟨[], [], [], some failure⟩ ∧
      report (.portion (.error failure) :: s.answers calls) = ⟨[], [], [], some failure⟩ := by
  obtain ⟨preambles, openings, epilogues, -⟩ := report_of_dead (by rw [failed]; rfl) calls
  simp only [report] at preambles openings epilogues ⊢
  simp [preambles, openings, epilogues]

theorem confirms_of_done (done : s.phase = .done) (calls : List Call) :
    Confirms [] (s.answers calls) := by
  obtain ⟨preambles, openings, epilogues, drained⟩ := report_of_dead (by rw [done]; rfl) calls
  refine ⟨?_, fun read => by simp [drained] at read⟩
  exact Report.ext preambles openings epilogues (failure_of_done done calls)

/-- Nothing has failed yet. -/
def Sound (s : Scanner) : Prop :=
  ∀ cause, s.phase ≠ .failed cause

theorem sound_of_live (live : s.phase.isLive = true) : s.Sound := by
  intro cause failed
  rw [failed] at live
  exact Bool.noConfusion live

theorem sound_of_behind (phase : s.phase = .headers ∨ s.phase = .closed) : s.Sound := by
  rcases phase with phase | phase <;> exact sound_of_live (by rw [phase]; rfl)

theorem done_of_dead (dead : s.phase.isLive = false) (sound : s.Sound) : s.phase = .done := by
  cases phase : s.phase with
  | done => rfl
  | failed cause => exact absurd phase (sound cause)
  | _ => simp [phase, Phase.isLive] at dead

theorem Sound.feed (sound : s.Sound) (chunk : Bytes) : (s.feed chunk).Sound := by
  intro cause
  rw [phase_feed]
  exact sound cause

theorem readBody_of_sound {room : Nat} (sound : s.Sound) (outside : s.phase ≠ .body) :
    s.readBody room = (.ok .finished, s) := by
  unfold readBody
  split
  · rename_i failed
    exact absurd failed (sound _)
  · rename_i body
    exact absurd body outside
  · rfl

theorem ends_later {answer : Answer} {answers : List Answer}
    (ends : .step (.ok .done) ∈ answer :: answers) (other : answer ≠ .step (.ok .done)) :
    .step (.ok .done) ∈ answers :=
  List.mem_of_ne_of_mem other.symm ends

/-- From what is foreseen to what is told, for every run with these calls that comes to the end. A run
that begins in a section and reads it to the end gives what is left of its content. -/
def Tracks (calls : List Call) : Prop :=
  ∀ {s : Scanner} {rest items}, s.Foresees rest items → s.Sound → Feeds rest calls →
    .step (.ok .done) ∈ s.answers calls →
    Confirms items (s.answers calls) ∧
      (s.phase = .body → ∀ {bytes}, drain (s.answers calls) = some bytes →
        ∃ more, items = .content bytes :: more)

theorem Tracks.feed (tracks : Tracks calls) (chunk : Bytes) : Tracks (.feed chunk :: calls) := by
  intro s rest items foresees sound feeds ends
  obtain ⟨⟨behind, rfl⟩, onward⟩ := feeds
  rw [List.drop_left] at onward
  have told := tracks foresees.feed (sound.feed chunk) onward ends
  rw [phase_feed] at told
  exact told

theorem Tracks.finish (tracks : Tracks calls) : Tracks (.finish :: calls) := by
  intro s rest items foresees sound feeds ends
  obtain ⟨rfl, onward⟩ := feeds
  exact tracks foresees.finish sound onward ends

/-- A step tells the next item, whatever is left of the section at hand. -/
theorem Tracks.next (tracks : Tracks calls) : Tracks (.next :: calls) := by
  intro s rest items foresees sound feeds ends
  rw [answers] at ends ⊢
  rcases step : s.next with ⟨result, t⟩
  obtain ⟨tells, advances⟩ := foresees.next step
  rw [step] at ends
  simp only at ends ⊢
  -- No run that goes on with a step reads the section at hand to its end.
  refine ⟨?_, fun _ _ read => by simp [drain] at read⟩
  match result, tells with
  | .error failure, ⟨only, failed, _⟩ =>
    obtain ⟨told, -⟩ := report_of_failed failed failure calls
    obtain ⟨-, -, -, drained⟩ := report_of_dead (by rw [failed]; rfl) calls
    exact (Confirms.failed told drained).of_pastContent only
  | .ok .needInput, ⟨_, later, same, onward⟩ =>
    obtain ⟨told, -⟩ := tracks onward (sound_of_live advances.2.2.1) feeds (ends_later ends nofun)
    exact Confirms.of_pastContent ⟨told.report, told.drains⟩ same.symm
  | .ok (.preamble bytes), ⟨more, same, phase, onward⟩ =>
    obtain ⟨told, -⟩ := tracks onward (sound_of_behind phase) feeds (ends_later ends nofun)
    exact told.preamble.of_pastContent same
  | .ok (.opened headers), ⟨content, more, same, body, onward⟩ =>
    obtain ⟨told, whole⟩ :=
      tracks onward (sound_of_live (by rw [body]; rfl)) feeds (ends_later ends nofun)
    refine (told.opened fun read => ?_).of_pastContent same
    obtain ⟨_, same⟩ := whole body read
    simp only [List.cons.injEq, Item.content.injEq] at same
    exact same.1.symm
  | .ok (.epilogue bytes), ⟨same, done, onward⟩ =>
    exact (confirms_of_done done calls).epilogue.of_pastContent same
  | .ok .done, ⟨same, onward⟩ =>
    obtain ⟨dead, rfl⟩ := advances
    have told := confirms_of_done (done_of_dead dead sound) calls
    exact Confirms.of_pastContent ⟨told.report, told.drains⟩ same

/-- In a section, reading takes a front of what is left of the content. -/
theorem Tracks.read_body {room : Nat} (tracks : Tracks calls) (foresees : s.Foresees rest items)
    (body : s.phase = .body) (feeds : Feeds rest (.read room :: calls))
    (ends : .step (.ok .done) ∈ s.answers (.read room :: calls)) :
    Confirms items (s.answers (.read room :: calls)) ∧
      ∀ {bytes}, drain (s.answers (.read room :: calls)) = some bytes →
        ∃ more, items = .content bytes :: more := by
  obtain ⟨space, onward⟩ := feeds
  obtain ⟨content, more, rfl⟩ := foresees.content_cons body
  rw [answers] at ends ⊢
  rcases read : s.readBody room with ⟨result, t⟩
  obtain ⟨yields, -⟩ := foresees.readBody body space read
  rw [read] at ends
  simp only at ends ⊢
  match result, yields with
  | .error failure, ⟨nothing, only, failed, _⟩ =>
    subst nothing only
    obtain ⟨-, told⟩ := report_of_failed failed failure calls
    obtain ⟨-, -, -, drained⟩ := report_of_dead (by rw [failed]; rfl) calls
    refine ⟨(Confirms.failed told drained).of_pastContent rfl, fun whole => ?_⟩
    simp only [drain, Option.some.injEq] at whole
    exact ⟨_, by rw [whole]⟩
  | .ok .needInput, ⟨_, body', later⟩ =>
    obtain ⟨told, whole⟩ :=
      tracks later (sound_of_live (by rw [body']; rfl)) onward (ends_later ends nofun)
    exact ⟨⟨told.report, told.drains⟩, whole body'⟩
  | .ok (.data bytes), ⟨left, same, _, body', later⟩ =>
    obtain ⟨told, whole⟩ :=
      tracks later (sound_of_live (by rw [body']; rfl)) onward (ends_later ends nofun)
    refine ⟨Confirms.of_pastContent ⟨told.report, told.drains⟩ rfl, fun read => ?_⟩
    obtain ⟨bytes', read', rfl⟩ := Option.map_eq_some_iff.1 read
    obtain ⟨_, same'⟩ := whole body' read'
    simp only [List.cons.injEq, Item.content.injEq] at same'
    exact ⟨more, by rw [same, same'.1]⟩
  | .ok .finished, ⟨nothing, phase, later⟩ =>
    obtain ⟨told, -⟩ := tracks later (sound_of_behind phase) onward (ends_later ends nofun)
    subst nothing
    refine ⟨Confirms.of_pastContent ⟨told.report, told.drains⟩ (later.behind phase).symm,
      fun whole => ?_⟩
    simp only [drain, Option.some.injEq] at whole
    exact ⟨_, by rw [whole]⟩

theorem Tracks.read (tracks : Tracks calls) (room : Nat) : Tracks (.read room :: calls) := by
  intro s rest items foresees sound feeds ends
  by_cases body : s.phase = .body
  · obtain ⟨told, whole⟩ := tracks.read_body foresees body feeds ends
    exact ⟨told, fun _ => whole⟩
  · rw [answers, readBody_of_sound sound body] at ends ⊢
    obtain ⟨told, -⟩ := tracks foresees sound feeds.2 (ends_later ends nofun)
    exact ⟨⟨told.report, told.drains⟩, fun body' => absurd body' body⟩

theorem tracks_calls (calls : List Call) : Tracks calls := by
  induction calls with
  | nil =>
    intro s rest items _ _ _ ends
    simp [answers] at ends
  | cons call calls ih =>
    cases call with
    | feed chunk => exact ih.feed chunk
    | finish => exact ih.finish
    | next => exact ih.next
    | read room => exact ih.read room

variable {b : Boundary} {charset : Charset} {limits : Limits} {calls' : List Call}

/-- A run that comes to the end has told the items that the input parses as. -/
theorem confirms_of_parses
    (parses : Format.Parses ⟨b, charset, limits.headerLimit⟩ .front input items)
    (feeds : Feeds input calls) (ends : .step (.ok .done) ∈ (new b charset limits).answers calls) :
    Confirms items ((new b charset limits).answers calls) :=
  (tracks_calls calls (new_foresees.2 parses) (sound_of_live rfl) feeds ends).1

/-- Two runs over the same input tell the same, however each of them feeds it and whatever each of
them reads, and sections that both read to the end have the same content. -/
theorem schedule_independent (feeds : Feeds input calls) (feeds' : Feeds input calls')
    (ends : .step (.ok .done) ∈ (new b charset limits).answers calls)
    (ends' : .step (.ok .done) ∈ (new b charset limits).answers calls') :
    report ((new b charset limits).answers calls) = report ((new b charset limits).answers calls') ∧
      ∀ (i : Nat) (bytes bytes' : Bytes),
        (drains ((new b charset limits).answers calls))[i]? = some (some bytes) →
        (drains ((new b charset limits).answers calls'))[i]? = some (some bytes') →
        bytes = bytes' := by
  obtain ⟨items, parses⟩ := Format.exists_parses ⟨b, charset, limits.headerLimit⟩ .front input
  have told := confirms_of_parses parses feeds ends
  have told' := confirms_of_parses parses feeds' ends'
  refine ⟨told.report.trans told'.report.symm, fun i bytes bytes' read read' => ?_⟩
  have same := (told.drains read).symm.trans (told'.drains read')
  exact Option.some.inj same

/-- A body whose one section holds a look-alike of its boundary. -/
def sampleBody : Bytes := Utf8.encode "--b\r\n\r\nabc\r\n--bx\r\n--b--"

def sampleBoundary : Boundary := ⟨"b", by decide +kernel⟩

/-- The body is fed at once, and the section is read to its end. -/
def wholeCalls : List Call :=
  [.feed sampleBody, .finish, .next, .next, .read 3, .read 100, .read 1, .next, .next]

/-- The body is cut inside the look-alike, and the section is read in part. -/
def cutCalls : List Call :=
  [.next, .feed (sampleBody.take 13), .next, .next, .read 2, .feed (sampleBody.drop 13), .feed [],
    .next, .finish, .next, .next]

theorem schedule_independent_sample :
    Feeds sampleBody wholeCalls ∧ Feeds sampleBody cutCalls ∧
      report ((new sampleBoundary .utf8 .default).answers wholeCalls) =
        report ((new sampleBoundary .utf8 .default).answers cutCalls) := by
  have whole : Feeds sampleBody wholeCalls := by decide +kernel
  have cut : Feeds sampleBody cutCalls := by decide +kernel
  exact ⟨whole, cut,
    (schedule_independent whole cut (by decide +kernel) (by decide +kernel)).1⟩

end Scanner

end HttpForms.Multipart
