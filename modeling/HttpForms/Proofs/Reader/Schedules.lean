import HttpForms.Proofs.Reader.Ending
import HttpForms.Proofs.Reader.Sections
import HttpForms.Proofs.Scanner.Schedule

/-!
# A reader keeps a schedule of its scanner

Whatever is asked of a reader comes down to calls of its scanner: the octets of the source are fed as
they come, the input is ended where the source ends, and steps and portions are asked for again until
there is an answer. So the answers of a reader are those of its scanner under some schedule, less the
requests for input, and what is known of all schedules holds of every use of a reader.

Results:

1. `Condenses.report_eq`, `Condenses.drains_eq` — the requests for input tell nothing;
2. `Reader.scheduled_answers` — the answers of a reader are those of a schedule;
3. `Reader.answers_confirm` — a reader that is used to the end tells the items that are foreseen.
-/

namespace HttpForms.Multipart

/-! ## Answers without requests for input -/

/-- The answers without requests for input. A request for input where a step was asked for is dropped
where the step is asked for again and comes. -/
inductive Condenses : List Answer → List Answer → Prop
  | nil : Condenses [] []
  | told {answer : Answer} {answers told : List Answer} :
      Condenses answers told → Condenses (answer :: answers) (answer :: told)
  | step {result : Except Failure Step} {answers told : List Answer} :
      Condenses answers (.step result :: told) →
      Condenses (.step (.ok .needInput) :: answers) (.step result :: told)
  | portion {answers told : List Answer} :
      Condenses answers told → Condenses (.portion (.ok .needInput) :: answers) told

section CondensesLemmas

variable {answers told : List Answer} {items : List Item}

theorem Condenses.drain_eq (condenses : Condenses answers told) : drain answers = drain told := by
  induction condenses with
  | nil => rfl
  | @told answer answers told _ ih =>
    rcases answer with _ | ⟨_ | _ | _ | _⟩ <;> simp [drain, ih]
  | step _ _ => rfl
  | portion _ ih => exact ih

/-- Requests for input are no part of the content of a section. -/
theorem Condenses.drains_eq (condenses : Condenses answers told) : drains answers = drains told := by
  induction condenses with
  | nil => rfl
  | @told answer answers told rest ih =>
    rcases answer with ⟨_ | _ | _ | _ | _ | _⟩ | _ <;> simp [drains, ih, rest.drain_eq]
  | step _ ih => exact ih
  | portion _ ih => exact ih

/-- Requests for input tell nothing of a body. -/
theorem Condenses.report_eq (condenses : Condenses answers told) : report answers = report told := by
  induction condenses with
  | nil => rfl
  | @told answer answers told _ ih =>
    simp only [report, Report.mk.injEq, List.filterMap_cons, List.findSome?_cons] at ih ⊢
    simp [ih]
  | step _ ih => exact ih
  | portion _ ih => exact ih

theorem Condenses.mem (condenses : Condenses answers told) {answer : Answer}
    (there : answer ∈ told) : answer ∈ answers := by
  induction condenses with
  | nil => exact there
  | told _ ih =>
    rcases List.mem_cons.1 there with rfl | later
    · exact List.mem_cons_self
    · exact List.mem_cons_of_mem _ (ih later)
  | step _ ih => exact List.mem_cons_of_mem _ (ih there)
  | portion _ ih => exact List.mem_cons_of_mem _ (ih there)

theorem Confirms.condense (confirms : Confirms items answers) (condenses : Condenses answers told) :
    Confirms items told where
  report := condenses.report_eq ▸ confirms.report
  drains read := confirms.drains (condenses.drains_eq ▸ read)

end CondensesLemmas

/-! ## Schedules of a scanner -/

namespace Scanner

/-- Some schedule for what is to come gets these answers, requests for input apart. -/
def CanAnswer (s : Scanner) (rest : Bytes) (told : List Answer) : Prop :=
  ∃ calls, Feeds rest calls ∧ Condenses (s.answers calls) told

section CanAnswerLemmas

variable {s t : Scanner} {rest chunk : Bytes} {told : List Answer} {items : List Item} {room : Nat}

theorem canAnswer_nil (s : Scanner) (rest : Bytes) : s.CanAnswer rest [] :=
  ⟨[], trivial, .nil⟩

theorem CanAnswer.feed (later : (s.feed chunk).CanAnswer rest told) :
    s.CanAnswer (chunk ++ rest) told := by
  obtain ⟨calls, feeds, condenses⟩ := later
  exact ⟨.feed chunk :: calls, ⟨List.prefix_append _ _, by rwa [List.drop_left]⟩, condenses⟩

theorem CanAnswer.finish (later : s.finish.CanAnswer [] told) : s.CanAnswer [] told := by
  obtain ⟨calls, feeds, condenses⟩ := later
  exact ⟨.finish :: calls, ⟨rfl, feeds⟩, condenses⟩

theorem CanAnswer.step {result : Except Failure Step} (step : s.next = (result, t))
    (later : t.CanAnswer rest told) : s.CanAnswer rest (.step result :: told) := by
  obtain ⟨calls, feeds, condenses⟩ := later
  refine ⟨.next :: calls, feeds, ?_⟩
  rw [answers, step]
  exact .told condenses

theorem CanAnswer.step_again {result : Except Failure Step} (step : s.next = (.ok .needInput, t))
    (later : t.CanAnswer rest (.step result :: told)) : s.CanAnswer rest (.step result :: told) := by
  obtain ⟨calls, feeds, condenses⟩ := later
  refine ⟨.next :: calls, feeds, ?_⟩
  rw [answers, step]
  exact .step condenses

theorem CanAnswer.portion {result : Except Failure Portion} (space : 0 < room)
    (read : s.readBody room = (result, t)) (later : t.CanAnswer rest told) :
    s.CanAnswer rest (.portion result :: told) := by
  obtain ⟨calls, feeds, condenses⟩ := later
  refine ⟨.read room :: calls, ⟨space, feeds⟩, ?_⟩
  rw [answers, read]
  exact .told condenses

theorem CanAnswer.portion_again (space : 0 < room) (read : s.readBody room = (.ok .needInput, t))
    (later : t.CanAnswer rest told) : s.CanAnswer rest told := by
  obtain ⟨calls, feeds, condenses⟩ := later
  refine ⟨.read room :: calls, ⟨space, feeds⟩, ?_⟩
  rw [answers, read]
  exact .portion condenses

/-- Behind any step something is foreseen. -/
theorem Foresees.behind_next {result : Except Failure Step} (foresees : s.Foresees rest items)
    (step : s.next = (result, t)) : ∃ later, t.Foresees rest later := by
  have tells := (foresees.next step).1
  match result, tells with
  | .error _, ⟨_, _, onward⟩ => exact ⟨_, onward⟩
  | .ok .needInput, ⟨_, _, _, onward⟩ => exact ⟨_, onward⟩
  | .ok (.preamble _), ⟨_, _, _, onward⟩ => exact ⟨_, onward⟩
  | .ok (.opened _), ⟨_, _, _, _, onward⟩ => exact ⟨_, onward⟩
  | .ok (.epilogue _), ⟨_, _, onward⟩ => exact ⟨_, onward⟩
  | .ok .done, ⟨_, onward⟩ => exact ⟨_, onward⟩

/-- Behind any portion something is foreseen, and no portion is empty. -/
theorem Foresees.behind_readBody {result : Except Failure Portion} (foresees : s.Foresees rest items)
    (space : 0 < room) (read : s.readBody room = (result, t)) :
    (∃ later, t.Foresees rest later) ∧ result ≠ .ok (.data []) := by
  by_cases body : s.phase = .body
  · obtain ⟨content, more, rfl⟩ := foresees.content_cons body
    have yields := (foresees.readBody body space read).1
    match result, yields with
    | .error _, ⟨_, _, _, onward⟩ => exact ⟨⟨_, onward⟩, nofun⟩
    | .ok .needInput, ⟨_, _, onward⟩ => exact ⟨⟨_, onward⟩, nofun⟩
    | .ok (.data bytes), ⟨_, _, solid, _, onward⟩ =>
      refine ⟨⟨_, onward⟩, ?_⟩
      rintro ⟨⟩
      exact solid rfl
    | .ok .finished, ⟨_, _, onward⟩ => exact ⟨⟨_, onward⟩, nofun⟩
  · have same : (s.readBody room).2 = s := readBody_outside body
    have moves := readBody_moves s room
    rw [read] at same moves
    obtain rfl : t = s := same
    refine ⟨⟨items, foresees⟩, ?_⟩
    rintro rfl
    exact body moves.1

end CanAnswerLemmas

end Scanner

/-! ## Answers of a reader -/

/-- The step that an event is, or its absence. -/
def Event.step : Except Failure (Option Event) → Except Failure Step
  | .ok (some (.preamble bytes)) => .ok (.preamble bytes)
  | .ok (some (.opened headers)) => .ok (.opened headers)
  | .ok (some (.epilogue bytes)) => .ok (.epilogue bytes)
  | .ok none => .ok .done
  | .error failure => .error failure

/-- What a poll answers; to have to wait is no answer. -/
def Polled.answers : Polled (Except Failure Bytes) → List Answer
  | .pending => []
  | .ready (.ok []) => [.portion (.ok .finished)]
  | .ready (.ok (b :: bytes)) => [.portion (.ok (.data (b :: bytes)))]
  | .ready (.error failure) => [.portion (.error failure)]

namespace Reader

variable {σ : Type} [ByteSource σ]

/-- The answers of a reader to what is asked of it. Without room nothing is asked. -/
def answers (mode : Mode) (r : Reader σ) : List Demand → List Answer
  | [] => []
  | .event :: later => .step (Event.step (r.nextEvent mode).1) :: (r.nextEvent mode).2.answers mode later
  | .content 0 :: later => r.answers mode later
  | .content (room + 1) :: later =>
    (r.poll mode (room + 1)).1.answers ++ (r.poll mode (room + 1)).2.answers mode later

/-- Whatever is foreseen, some schedule gets these answers of the scanner. -/
def Scheduled (r : Reader σ) (told : List Answer) : Prop :=
  ∀ rest items, r.scanner.Foresees rest items →
    (r.scanner.ended = false → Gives r.chunkSize r.source rest) → r.scanner.CanAnswer rest told

section ScheduledLemmas

variable {r t : Reader σ} {s : Scanner} {mode : Mode} {told : List Answer} {items : List Item}
  {room : Nat}

/-! ## The source -/

/-- To ask the source is to feed what it gives, or to end the input. -/
theorem scheduled_ask (mode : Mode) (open_ : r.scanner.ended = false)
    (later : (r.ask mode).2.Scheduled told) : r.Scheduled told := by
  fun_induction ask mode r with
  | case1 mode r bytes source asked =>
    intro rest items foresees gives
    rcases (gives open_).of_data asked with ⟨rfl, rfl⟩ | ⟨solid, rest, rfl, onward⟩
    · exact (later _ _ foresees.finish fun more => Bool.noConfusion more).finish
    · have fed : (r.absorb source bytes).scanner = r.scanner.feed bytes := by
        simp [absorb, List.isEmpty_eq_false_iff.2 solid]
      have answers := later rest items (by rw [fed]; exact foresees.feed) fun _ => onward
      rw [fed] at answers
      exact answers.feed
  | case2 mode r error source asked =>
    intro rest items _ gives
    exact absurd asked (gives open_).not_failed
  | case3 mode r source asked ih =>
    intro rest items foresees gives
    exact ih open_ later _ _ foresees fun _ => (gives open_).of_again asked rfl
  | case4 r source asked ih =>
    intro rest items foresees gives
    exact ih open_ later _ _ foresees fun _ => (gives open_).of_again asked rfl
  | case5 r source asked =>
    intro rest items foresees gives
    exact later _ _ foresees fun _ => (gives open_).of_again asked rfl

theorem scheduled_fill (mode : Mode) (open_ : r.scanner.ended = false)
    (later : (r.fill mode).2.Scheduled told) : r.Scheduled told := by
  fun_induction fill mode r with
  | case1 r result t asked =>
    refine scheduled_ask mode open_ ?_
    rwa [asked]
  | case2 r t asked ih =>
    have asks := ask_progress mode r
    rw [asked] at asks
    refine scheduled_ask mode open_ ?_
    rw [asked]
    exact ih (by rw [asks.1]; exact open_) later

/-! ## Events and content -/

theorem scheduled_step {result : Except Failure Step} (step : r.scanner.next = (result, s))
    (ended : s.ended = r.scanner.ended) (later : Scheduled { r with scanner := s } told) :
    r.Scheduled (.step result :: told) := by
  intro rest items foresees gives
  obtain ⟨_, onward⟩ := foresees.behind_next step
  exact (later _ _ onward fun open_ => gives (ended ▸ open_)).step step

theorem scheduled_nextEvent (mode : Mode) (later : (r.nextEvent mode).2.Scheduled told) :
    r.Scheduled (.step (Event.step (r.nextEvent mode).1) :: told) := by
  fun_induction nextEvent mode r with
  | case1 r bytes s step
  | case2 r headers s step
  | case3 r bytes s step
  | case4 r s step
  | case5 r failure s step =>
    have ended := Scanner.ended_next r.scanner
    rw [step] at ended
    exact scheduled_step step ended later
  | case6 r s step t filled ih =>
    intro rest items foresees gives
    have advances := Scanner.next_advances r.scanner
    rw [step] at advances
    have again : Scheduled { r with scanner := s } _ :=
      scheduled_fill mode advances.2.1 (by rw [filled]; exact ih later)
    obtain ⟨_, onward⟩ := foresees.behind_next step
    exact (again _ _ onward fun _ => gives advances.1).step_again step
  | case7 r s step failure t filled =>
    intro rest items foresees gives
    obtain ⟨_, _, supplies⟩ := next_supplies mode ⟨rest, foresees, gives⟩ step
    rw [filled] at supplies
    exact supplies.elim

theorem scheduled_portion {result : Except Failure Portion} (space : 0 < room)
    (read : r.scanner.readBody room = (result, s)) (later : Scheduled { r with scanner := s } told) :
    r.Scheduled (.portion result :: told) := by
  intro rest items foresees gives
  have ended := Scanner.ended_readBody r.scanner room
  rw [read] at ended
  obtain ⟨⟨_, onward⟩, -⟩ := foresees.behind_readBody space read
  exact (later _ _ onward fun open_ => gives (ended ▸ open_)).portion space read

/-- A portion that needs input is asked for again where the source has been asked. -/
theorem scheduled_portion_again (mode : Mode) (space : 0 < room)
    (read : r.scanner.readBody room = (.ok .needInput, s))
    (later : (ask mode { r with scanner := s }).2.Scheduled told) : r.Scheduled told := by
  intro rest items foresees gives
  have reads := Scanner.readBody_reads r.scanner room
  rw [read] at reads
  have again : Scheduled { r with scanner := s } _ := scheduled_ask mode reads.2.1 later
  obtain ⟨⟨_, onward⟩, -⟩ := foresees.behind_readBody space read
  exact (again _ _ onward fun _ => gives reads.1).portion_again space read

theorem scheduled_poll (mode : Mode) (space : 0 < room) (later : (r.poll mode room).2.Scheduled told) :
    r.Scheduled ((r.poll mode room).1.answers ++ told) := by
  fun_induction poll mode r room with
  | case1 r =>
    rename_i none
    exact absurd none (Nat.ne_of_gt space)
  | case2 r _ bytes s read =>
    cases bytes with
    | nil =>
      intro rest items foresees _
      exact absurd rfl (foresees.behind_readBody space read).2
    | cons b bytes => exact scheduled_portion space read later
  | case3 r _ s read | case4 r _ failure s read => exact scheduled_portion space read later
  | case5 r _ s read t asked ih =>
    exact scheduled_portion_again mode space read (by rw [asked]; exact ih later)
  | case6 r _ s read failure t asked =>
    intro rest items foresees gives
    have moves := Scanner.readBody_moves r.scanner room
    rw [read] at moves
    obtain ⟨content, more, rfl⟩ := foresees.content_cons moves.1
    obtain ⟨-, supplies⟩ := readBody_supplies mode ⟨rest, foresees, gives⟩ moves.1 space read
    rw [asked] at supplies
    exact supplies.elim
  | case7 r _ s read t asked =>
    exact scheduled_portion_again mode space read (by rw [asked]; exact later)

/-- The answers of a reader are those of some schedule of its scanner. -/
theorem scheduled_answers (mode : Mode) (r : Reader σ) (demands : List Demand) :
    r.Scheduled (r.answers mode demands) := by
  induction demands generalizing r with
  | nil => exact fun _ _ _ _ => Scanner.canAnswer_nil _ _
  | cons demand later ih =>
    match demand with
    | .event => exact scheduled_nextEvent mode (ih _)
    | .content 0 => exact ih r
    | .content (room + 1) => exact scheduled_poll mode (Nat.succ_pos room) (ih _)

/-- A reader that is used to the end tells the items that are foreseen, however it is used. -/
theorem answers_confirm (foresees : r.Foresees items) (sound : r.scanner.Sound)
    {demands : List Demand} (ends : .step (.ok .done) ∈ r.answers mode demands) :
    Confirms items (r.answers mode demands) := by
  obtain ⟨rest, ahead, gives⟩ := foresees
  obtain ⟨calls, feeds, condenses⟩ := scheduled_answers mode r demands _ _ ahead gives
  exact (Scanner.tracks_calls calls ahead sound feeds (condenses.mem ends)).1.condense condenses

end ScheduledLemmas

end Reader

end HttpForms.Multipart
