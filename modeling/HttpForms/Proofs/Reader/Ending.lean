import HttpForms.Proofs.Reader.Rooms
import HttpForms.Proofs.Scanner.Protocol
import HttpForms.Proofs.Scanner.Turns

/-!
# Reading comes to an end

A scanner answers after finitely many turns, and once its input has ended it does not ask for more.
So a reader leaves its source alone behind the end or an error, and however it is used, whoever reads
a section or a body to its end gets there. What lies behind the last answer of a source is of no
account, then: where that goes on for ever, the source is cut off, and its reader cannot tell.

Results:

1. `isHungry_of_ended` — a scanner whose input has ended needs none;
2. `Reader.kept_spares` — nothing that a reader does asks the source behind its last answer;
3. `Reader.kept_echoes` — a source that was cut off tells its reader what it told before;
4. `Reader.polls_end`, `Reader.events_end` — sections and bodies come to an end;
5. `Reader.reading_ends` — all of this for a new reader, in the size of its source.
-/

namespace HttpForms.Multipart

/-! ## Scanners -/

namespace Scanner

/-- Whether no further input makes a difference: either it has ended, or reading has. -/
def isDry (s : Scanner) : Bool :=
  s.ended || !s.phase.isLive

section EndingLemmas

variable {s : Scanner} {operation : Operation}

/-- A step does not end the input, and does not open it again. -/
theorem ended_next (s : Scanner) : s.next.2.ended = s.ended := by
  have advances := next_advances s
  rcases step : s.next with ⟨failure | answer, t⟩ <;> rw [step] at advances
  · exact advances.1
  · cases answer with
    | needInput => exact advances.2.1.trans advances.1.symm
    | preamble _ | opened _ | epilogue _ => exact advances.1
    | done => exact congrArg Scanner.ended advances.2

theorem ended_readBody (s : Scanner) (room : Nat) : (s.readBody room).2.ended = s.ended := by
  have reads := readBody_reads s room
  rcases read : s.readBody room with ⟨failure | portion, t⟩ <;> rw [read] at reads
  · exact reads.1
  · cases portion with
    | needInput => exact reads.2.1.trans reads.1.symm
    | data _ | finished => exact reads.1

/-- Behind the end or a failure there is nothing to read. -/
theorem readBody_of_dead (dead : s.phase.isLive = false) (room : Nat) : (s.readBody room).2 = s := by
  unfold readBody
  split
  · rfl
  · rename_i body
    rw [body] at dead
    cases dead
  · rfl

theorem isDry_next (dry : s.isDry = true) : s.next.2.isDry = true := by
  cases live : s.phase.isLive with
  | false => rwa [next_of_dead live]
  | true =>
    have ended : s.ended = true := by simpa [isDry, live] using dry
    rw [isDry, ended_next, ended]
    rfl

theorem isDry_readBody (dry : s.isDry = true) (room : Nat) : (s.readBody room).2.isDry = true := by
  cases live : s.phase.isLive with
  | false => rwa [readBody_of_dead live]
  | true =>
    have ended : s.ended = true := by simpa [isDry, live] using dry
    rw [isDry, ended_readBody, ended]
    rfl

/-- No operation opens the input again. -/
theorem ended_perform (ended : s.ended = true) : (s.perform operation).2.ended = true := by
  cases operation with
  | feed chunk =>
    show (s.feed chunk).ended = true
    rwa [feed, if_pos ended]
  | finish => rfl
  | abort failure => exact ended
  | next => exact (ended_next s).trans ended
  | read room => exact (ended_readBody s room).trans ended

/-- Where the input has ended no reply asks for more. -/
theorem isHungry_perform (ended : s.ended = true) : (s.perform operation).1.isHungry = false := by
  cases operation with
  | feed chunk | finish | abort failure => rfl
  | next =>
    have advances := next_advances s
    rcases step : s.next with ⟨_ | _ | _ | _ | _ | _, t⟩ <;> rw [step] at advances <;>
      simp only [perform, step]
    · rfl
    · exact absurd (ended.symm.trans advances.1) Bool.noConfusion
    · rfl
    · rfl
    · rfl
    · rfl
  | read room =>
    have reads := readBody_reads s room
    rcases read : s.readBody room with ⟨_ | _ | _ | _, t⟩ <;> rw [read] at reads <;>
      simp only [perform, read]
    · rfl
    · exact absurd (ended.symm.trans reads.1) Bool.noConfusion
    · rfl
    · rfl

/-- A scanner whose input has ended needs none, whatever is done with it. -/
theorem isHungry_of_ended (ended : s.ended = true) (operations : List Operation) :
    ∀ reply ∈ s.replies operations, reply.isHungry = false := by
  induction operations generalizing s with
  | nil => exact fun reply there => by cases there
  | cons operation later ih =>
    intro reply there
    rcases List.mem_cons.1 there with rfl | there
    · exact isHungry_perform ended
    · exact ih (ended_perform ended) reply there

/-- To finish as the last operation ends the input. -/
theorem ended_after_finish (s : Scanner) (before : List Operation) :
    (s.after (before ++ [.finish])).ended = true := by
  induction before generalizing s with
  | nil => rfl
  | cons operation before ih => exact ih _

end EndingLemmas

end Scanner

/-! ## Sources that are watched -/

/-- A source whose answers are written down. -/
structure Watched (σ : Type) where
  source : σ
  answers : List Poll

instance {σ : Type} [ByteSource σ] : ByteSource (Watched σ) where
  poll w room :=
    let (answer, source) := ByteSource.poll w.source room
    (answer, ⟨source, w.answers ++ [answer]⟩)
  size w := ByteSource.size w.source
  cost_le w room := ByteSource.cost_le w.source room

/-- Behind an answer that is the last one there is no other. -/
def Rests (answers : List Poll) : Prop :=
  ∀ {before answer later}, answers = before ++ answer :: later → answer.isLast = true → later = []

/-- Answers of a source that was left alone when it had nothing more to give, and that was asked no
more than so often. -/
structure Sparing (most : Nat) (answers : List Poll) : Prop where
  rests : Rests answers
  few : answers.length ≤ most

/-- What is answered to whoever asks again and again for so many octets, and where that leads to. -/
inductive Told {τ : Type} [EndingSource τ] (room : Nat) (first : τ) : List Poll → τ → Prop
  | none : Told room first [] first
  | more {answers : List Poll} {answer : Poll} {behind next : τ} : Told room first answers behind →
      EndingSource.poll behind room = (answer, next) → Told room first (answers ++ [answer]) next

section WatchedLemmas

variable {σ : Type} [ByteSource σ] {w next : Watched σ} {room : Nat} {answer : Poll}
  {answers : List Poll}

theorem Watched.of_poll (asked : ByteSource.poll w room = (answer, next)) :
    next.answers = w.answers ++ [answer] ∧ ByteSource.poll w.source room = (answer, next.source) := by
  cases asked
  exact ⟨rfl, rfl⟩

/-- Where there is more to come, one answer more may be the last one. -/
theorem rests_append (calm : ∀ answer ∈ answers, answer.isLast = false) (answer : Poll) :
    Rests (answers ++ [answer]) := by
  intro before other later told ends
  rcases List.eq_nil_or_concat later with none | ⟨later, newest, rfl⟩
  · exact none
  -- An answer that another one follows was there before.
  · have same : answers ++ [answer] = (before ++ other :: later) ++ [newest] := by simpa using told
    have earlier : answers = before ++ other :: later := (List.append_inj' same rfl).1
    have there : other ∈ answers := by simp [earlier]
    exact absurd ((calm other there).symm.trans ends) Bool.noConfusion

end WatchedLemmas

namespace Reader

variable {σ : Type} [ByteSource σ]

theorem isDry_eq_false {s : Scanner} (open_ : s.ended = false) (live : s.phase.isLive = true) :
    s.isDry = false := by
  rw [Scanner.isDry, open_, live]
  rfl

/-- What a reader keeps that cares for one thing only: behind a last answer of the source, and from
there on, input makes no difference. -/
theorem kept_of_dry {P : Reader σ → Prop}
    (move : ∀ {r s}, P r → (r.scanner.isDry = true → s.isDry = true) → P { r with scanner := s })
    (asking : ∀ {r answer source s}, P r → r.scanner.isDry = false →
      ByteSource.poll r.source r.chunkSize = (answer, source) →
      (answer.isLast = true → s.isDry = true) → P ⟨source, s, r.chunkSize⟩) : Kept P where
  step {r _ _} holds step := move holds fun dry => by
    have still := Scanner.isDry_next dry
    rwa [step] at still
  content {r room _ _} holds read := move holds fun dry => by
    have still := Scanner.isDry_readBody dry room
    rwa [read] at still
  data {r bytes source} holds open_ live asked :=
    asking holds (isDry_eq_false open_ live) asked fun ends => by
      show (if bytes.isEmpty then r.scanner.finish else r.scanner.feed bytes).isDry = true
      rw [if_pos (show bytes.isEmpty = true from ends)]
      rfl
  failed holds open_ live asked :=
    asking holds (isDry_eq_false open_ live) asked fun _ => by
      rw [Scanner.isDry, Scanner.abort]
      exact Bool.or_true _
  again holds open_ live asked again :=
    asking holds (isDry_eq_false open_ live) asked fun last =>
      absurd (last.symm.trans (Poll.isLast_of_isAgain again)) Bool.noConfusion

/-- What has been asked of a watched source that a reader spares. -/
structure Spares (most : Nat) (r : Reader (Watched σ)) : Prop where
  /-- As long as input makes a difference, there is more to come. -/
  calm : r.scanner.isDry = false → ∀ answer ∈ r.source.answers, answer.isLast = false
  rests : Rests r.source.answers
  /-- Every answer used something up, except for a last one. -/
  few : r.source.answers.length + ByteSource.size r.source.source ≤
    most + if r.scanner.isDry then 1 else 0

section SparesLemmas

variable {most : Nat} {r : Reader (Watched σ)} {s : Scanner} {answer : Poll} {source : Watched σ}

theorem Spares.sparing (spares : Spares most r) : Sparing (most + 1) r.source.answers := by
  refine ⟨spares.rests, ?_⟩
  have few := spares.few
  split at few <;> omega

/-- The scanner may do what it does, as long as it does not ask for input again. -/
theorem Spares.move (spares : Spares most r) (dry : r.scanner.isDry = true → s.isDry = true) :
    Spares most { r with scanner := s } := by
  cases was : r.scanner.isDry with
  | false =>
    have few := spares.few
    rw [was] at few
    exact ⟨fun _ => spares.calm was, spares.rests, Nat.le_trans few (Nat.le_add_right _ _)⟩
  | true =>
    have still := dry was
    refine ⟨fun wet => absurd (still.symm.trans wet) Bool.noConfusion, spares.rests, ?_⟩
    have few := spares.few
    rw [was] at few
    rwa [show ({ r with scanner := s } : Reader (Watched σ)).scanner.isDry = true from still]

/-- Where input makes a difference the source may be asked, if a last answer leaves no use for
another one. -/
theorem Spares.asking (spares : Spares most r) (wet : r.scanner.isDry = false)
    (asked : ByteSource.poll r.source r.chunkSize = (answer, source))
    (dry : answer.isLast = true → s.isDry = true) : Spares most ⟨source, s, r.chunkSize⟩ := by
  have calm := spares.calm wet
  have few := spares.few
  obtain ⟨answers, polled⟩ := Watched.of_poll asked
  have cost := ByteSource.cost_le r.source.source r.chunkSize
  rw [polled] at cost
  rw [wet] at few
  have longer : source.answers.length = r.source.answers.length + 1 := by simp [answers]
  cases ends : answer.isLast with
  | false =>
    have positive := Poll.cost_pos ends
    refine ⟨fun _ other there => ?_, answers ▸ rests_append calm answer, ?_⟩
    · rw [answers] at there
      rcases List.mem_append.1 there with earlier | newest
      · exact calm other earlier
      · rwa [List.mem_singleton.1 newest]
    · simp only [Bool.false_eq_true, if_false] at cost few ⊢
      omega
  | true =>
    have still := dry ends
    refine ⟨fun open_ => absurd (still.symm.trans open_) Bool.noConfusion,
      answers ▸ rests_append calm answer, ?_⟩
    simp only [still, Bool.false_eq_true, if_false, if_true] at cost few ⊢
    omega

/-- Nothing that a reader does asks the source behind its last answer. -/
theorem kept_spares : Kept (Spares (σ := σ) most) :=
  kept_of_dry Spares.move Spares.asking

end SparesLemmas

/-! ## Sources that are cut off -/

section EchoesLemmas

variable {τ : Type} [EndingSource τ] {room : Nat} {first : τ} {r : Reader (Watched (CutOff τ))}
  {s : Scanner} {answer : Poll} {next : Watched (CutOff τ)}

/-- What a reader has heard of a source that is cut off. -/
structure Echoes (room : Nat) (first : τ) (r : Reader (Watched (CutOff τ))) : Prop where
  size : r.chunkSize = room
  told : Told room first r.source.answers r.source.source.source
  /-- Behind the last answer there is no use for input. -/
  spent : r.source.source.spent = true → r.scanner.isDry = true

theorem Echoes.move (echoes : Echoes room first r) (dry : r.scanner.isDry = true → s.isDry = true) :
    Echoes room first { r with scanner := s } :=
  ⟨echoes.size, echoes.told, fun spent => dry (echoes.spent spent)⟩

/-- As long as there is use for input it is the source itself that answers. -/
theorem Echoes.asking (echoes : Echoes room first r) (wet : r.scanner.isDry = false)
    (asked : ByteSource.poll r.source r.chunkSize = (answer, next))
    (dry : answer.isLast = true → s.isDry = true) : Echoes room first ⟨next, s, r.chunkSize⟩ := by
  have more : r.source.source.spent = false :=
    Bool.eq_false_iff.2 fun spent => Bool.noConfusion ((echoes.spent spent).symm.trans wet)
  obtain ⟨answers, polled⟩ := Watched.of_poll asked
  obtain ⟨answered, spent⟩ := CutOff.of_poll more polled
  refine ⟨echoes.size, ?_, fun last => dry (spent.symm.trans last)⟩
  rw [answers]
  exact echoes.told.more (echoes.size ▸ answered)

/-- A reader hears nothing of a source that was cut off but what the source says itself. -/
theorem kept_echoes : Kept (Echoes room first) :=
  kept_of_dry Echoes.move Echoes.asking

end EchoesLemmas

/-! ## Any use of a reader -/

/-- Something that is asked of a reader. Content is asked for with room for so many octets. -/
inductive Demand
  | event
  | content (room : Nat)

/-- The reader behind what was asked of it. -/
def behind (mode : Mode) (r : Reader σ) : List Demand → Reader σ
  | [] => r
  | .event :: later => behind mode (r.nextEvent mode).2 later
  | .content room :: later => behind mode (r.poll mode room).2 later

/-- The events among what is asked of a reader. -/
def events (mode : Mode) (r : Reader σ) : List Demand → List (Except Failure (Option Event))
  | [] => []
  | .event :: later => (r.nextEvent mode).1 :: events mode (r.nextEvent mode).2 later
  | .content room :: later => events mode (r.poll mode room).2 later

/-- The first answers to whoever polls a section with buffers of these sizes. -/
def polls (mode : Mode) (r : Reader σ) (rooms : Rooms) : Nat → List (Polled (Except Failure Bytes))
  | 0 => []
  | n + 1 => (r.poll mode (rooms 0).size).1 :: polls mode (r.poll mode (rooms 0).size).2 rooms.tail n

/-- Whether nothing is left to be polled for: the section has ended or failed. -/
def isEnd : Polled (Except Failure Bytes) → Bool
  | .ready (.ok bytes) => bytes.isEmpty
  | .ready (.error _) => true
  | .pending => false

section DemandLemmas

variable {mode : Mode} {r t : Reader σ} {rooms : Rooms} {n : Nat}

/-- What a reader keeps, it keeps whatever is asked of it. -/
theorem Kept.behind {P : Reader σ → Prop} (kept : Kept P) (mode : Mode) (demands : List Demand)
    (holds : P r) : P (r.behind mode demands) := by
  induction demands generalizing r with
  | nil => exact holds
  | cons demand later ih =>
    cases demand with
    | event => exact ih (kept.nextEvent mode holds)
    | content room => exact ih (kept.poll mode r room holds)

theorem nextEvent_remaining (mode : Mode) (r : Reader σ) :
    (r.nextEvent mode).2.remaining ≤ r.remaining := by
  have delivers := nextEvent_delivers mode r
  rcases event : r.nextEvent mode with ⟨_ | _ | _ | _ | _, t⟩ <;> rw [event] at delivers <;>
    exact delivers.2

theorem poll_remaining_le (mode : Mode) (r : Reader σ) (room : Nat) :
    (r.poll mode room).2.remaining ≤ r.remaining := by
  have polls := poll_remaining mode r room
  rcases polled : r.poll mode room with ⟨_ | result, t⟩ <;> rw [polled] at polls
  · exact Nat.le_of_lt polls
  · exact Nat.le_trans (Nat.le_add_left _ _) polls

/-- Whatever is asked of a reader leaves no more to be read than there was. -/
theorem behind_remaining (mode : Mode) (r : Reader σ) (demands : List Demand) :
    (r.behind mode demands).remaining ≤ r.remaining := by
  induction demands generalizing r with
  | nil => exact Nat.le_refl _
  | cons demand later ih =>
    cases demand with
    | event => exact Nat.le_trans (ih _) (nextEvent_remaining mode r)
    | content room => exact Nat.le_trans (ih _) (poll_remaining_le mode r room)

/-- Whoever polls a section more often than there is left to be read gets to its end. -/
theorem polls_end (rooms : Rooms) (enough : r.remaining < n) :
    ∃ answer ∈ r.polls mode rooms n, isEnd answer = true := by
  induction n generalizing r rooms with
  | zero => exact absurd enough (Nat.not_lt_zero _)
  | succ n ih =>
    have polled := poll_remaining mode r (rooms 0).size
    rw [polls]
    rcases answer : r.poll mode (rooms 0).size with ⟨_ | (failure | bytes), t⟩ <;>
      rw [answer] at polled
    · obtain ⟨last, there, ends⟩ := ih rooms.tail (Nat.lt_of_lt_of_le polled (Nat.le_of_lt_succ enough))
      exact ⟨last, List.mem_cons_of_mem _ there, ends⟩
    · exact ⟨_, List.mem_cons_self, rfl⟩
    · by_cases none : bytes = []
      · exact ⟨_, List.mem_cons_self, by rw [none]; rfl⟩
      · have less : t.remaining < r.remaining := remaining_lt_of_taken polled none
        obtain ⟨last, there, ends⟩ := ih rooms.tail (Nat.lt_of_lt_of_le less (Nat.le_of_lt_succ enough))
        exact ⟨last, List.mem_cons_of_mem _ there, ends⟩

/-! ## The last event -/

theorem nextEvent_of_dead (dead : r.scanner.phase.isLive = false) :
    r.nextEvent mode = (.ok none, r) := by
  rw [nextEvent_step, Scanner.next_of_dead dead]

theorem poll_of_dead (dead : r.scanner.phase.isLive = false) (room : Nat) :
    (r.poll mode room).2 = r := by
  have same := Scanner.readBody_of_dead dead room
  have reads := Scanner.readBody_moves r.scanner room
  rcases Nat.eq_zero_or_pos room with rfl | space
  · rw [poll, if_pos rfl]
  · rw [poll_step mode r space]
    rcases read : r.scanner.readBody room with ⟨_ | _ | _ | _, s⟩ <;> rw [read] at same reads <;>
      cases same
    · rfl
    · rw [reads.1] at dead
      cases dead
    · rfl
    · rfl

/-- Behind the last event there is nothing to come. -/
theorem dead_of_none (event : r.nextEvent mode = (.ok none, t)) : t.scanner.phase.isLive = false := by
  fun_induction nextEvent mode r with
  | case4 r s step =>
    have advances := Scanner.next_advances r.scanner
    rw [step] at advances
    obtain ⟨dead, rfl⟩ := advances
    cases event
    exact dead
  | case6 r s step u filled ih => exact ih event
  | case1 | case2 | case3 | case5 | case7 => cases event

/-- Every other event uses something up. -/
theorem nextEvent_size {result : Except Failure (Option Event)} (event : r.nextEvent mode = (result, t))
    (more : result ≠ .ok none) : t.size < r.size := by
  have delivers := nextEvent_delivers mode r
  rw [event] at delivers
  rcases result with _ | _ | _ | _ | _
  · exact delivers.1
  · exact absurd rfl more
  · exact delivers.1
  · have less := delivers.1
    have total := size_eq t
    split at total <;> omega
  · exact delivers.1

theorem poll_size (mode : Mode) (r : Reader σ) (room : Nat) : (r.poll mode room).2.size ≤ r.size := by
  cases live : r.scanner.phase.isLive with
  | false => exact Nat.le_of_eq (by rw [poll_of_dead live])
  | true =>
    have le := poll_remaining_le mode r room
    have before := size_eq r
    have after := size_eq (r.poll mode room).2
    rw [live, if_pos rfl] at before
    split at after <;> omega

/-- Where nothing is to come there is no event. -/
theorem events_of_dead (mode : Mode) (dead : r.scanner.phase.isLive = false)
    (demands : List Demand) :
    ∃ times, r.events mode demands = List.replicate times (.ok none) := by
  induction demands with
  | nil => exact ⟨0, rfl⟩
  | cons demand later ih =>
    cases demand with
    | event =>
      obtain ⟨times, same⟩ := ih
      rw [events, nextEvent_of_dead dead]
      exact ⟨times + 1, congrArg (_ :: ·) same⟩
    | content room => rwa [events, poll_of_dead dead]

/-- Events come as often at most as there is something left to be used up, and then there is none. -/
theorem events_end (mode : Mode) (r : Reader σ) (demands : List Demand) :
    ∃ told times, r.events mode demands = told ++ List.replicate times (.ok none) ∧
      .ok none ∉ told ∧ told.length ≤ r.size := by
  induction demands generalizing r with
  | nil => exact ⟨[], 0, rfl, List.not_mem_nil, Nat.zero_le _⟩
  | cons demand later ih =>
    cases demand with
    | event =>
      rw [events]
      rcases event : r.nextEvent mode with ⟨result, t⟩
      by_cases ends : result = .ok none
      · obtain ⟨times, none⟩ := events_of_dead mode (dead_of_none (ends ▸ event)) later
        exact ⟨[], times + 1, by rw [ends, none]; rfl, List.not_mem_nil, Nat.zero_le _⟩
      · obtain ⟨told, times, same, some_, few⟩ := ih t
        have less := nextEvent_size event ends
        refine ⟨result :: told, times, congrArg (result :: ·) same, ?_,
          Nat.lt_of_le_of_lt few less⟩
        exact List.not_mem_cons_of_ne_of_not_mem (fun same => ends same.symm) some_
    | content room =>
      obtain ⟨told, times, same, some_, few⟩ := ih (r.poll mode room).2
      exact ⟨told, times, same, some_, Nat.le_trans few (poll_size mode r room)⟩

end DemandLemmas

/-! ## New readers -/

section OpenedLemmas

variable (source : σ) (boundary : Boundary) (charset : Charset) (limits : Limits)

/-- A new reader has asked its source for nothing. -/
theorem spares_opened :
    Spares (ByteSource.size source) (opened (⟨source, []⟩ : Watched σ) boundary charset limits) where
  calm _ answer there := by cases there
  rests {before answer later} none _ := by cases before <;> cases none
  few := Nat.le_of_eq (Nat.zero_add _)

/-- However a new reader is used, it leaves its source alone when that has no more to give. -/
theorem sparing_behind (mode : Mode) (demands : List Demand) :
    Sparing (ByteSource.size source + 1)
      ((opened (⟨source, []⟩ : Watched σ) boundary charset limits).behind mode demands).source.answers :=
  (kept_spares.behind mode demands (spares_opened source boundary charset limits)).sparing

theorem sparing_run (mode : Mode) (plan : Plan) :
    Sparing (ByteSource.size source + 1)
      (plan.run mode (opened (⟨source, []⟩ : Watched σ) boundary charset limits)).2.source.answers := by
  have visitors := Visitors.keep_ofList (Action.keeps_visitors mode plan)
  exact (kept_spares.transcript visitors timesOver (spares_opened source boundary charset limits)).sparing

/-- A new reader has heard nothing yet. -/
theorem echoes_opened {τ : Type} [EndingSource τ] (first : τ) :
    Echoes limits.chunkSize first
      (opened (⟨.start first, []⟩ : Watched (CutOff τ)) boundary charset limits) where
  size := rfl
  told := .none
  spent ends := Bool.noConfusion ends

end OpenedLemmas

/-- Reading ends. A scanner answers every call after finitely many turns, and behind the end of its
input it asks for no more. A new reader, whatever is asked of it and by whatever plan it is used,
leaves its source alone behind the end or an error of it; whoever polls a section comes to its end;
and at some point there is no event any more, and never again. All of this goes for what is finite
only until it ends or fails, when it is cut off there: a reader hears what it says itself, no more
and nothing else. -/
theorem reading_ends (boundary : Boundary) (charset : Charset) (limits : Limits) :
    (∀ s : Scanner,
      Scanner.turns Scanner.turn (2 * s.buffer.bytes.length + 2) s = some s.next ∧
        ∀ room, Scanner.turns (Scanner.readTurn room) 2 s = some (s.readBody room)) ∧
    (∀ before later : List Operation,
      ∀ reply ∈ ((Scanner.new boundary charset limits).after (before ++ [.finish])).replies later,
        reply.isHungry = false) ∧
    (∀ {σ : Type} [ByteSource σ] (source : σ) (mode : Mode),
      let most := ByteSource.size source + 1
      let watched := opened (⟨source, []⟩ : Watched σ) boundary charset limits
      let r := opened source boundary charset limits
      (∀ demands, Sparing most (watched.behind mode demands).source.answers) ∧
        (∀ plan : Plan, Sparing most (plan.run mode watched).2.source.answers) ∧
        (∀ demands rooms, ∃ answer ∈ (r.behind mode demands).polls mode rooms most,
          isEnd answer = true) ∧
        ∀ demands, ∃ told times, r.events mode demands = told ++ List.replicate times (.ok none) ∧
          .ok none ∉ told ∧ told.length ≤ most) ∧
    ∀ {τ : Type} [EndingSource τ] (first : τ) (mode : Mode),
      let watched := opened (⟨.start first, []⟩ : Watched (CutOff τ)) boundary charset limits
      let hears (r : Reader (Watched (CutOff τ))) :=
        Told limits.chunkSize first r.source.answers r.source.source.source ∧
          Sparing (EndingSource.size first + 1) r.source.answers
      (∀ demands, hears (watched.behind mode demands)) ∧
        ∀ plan : Plan, hears (plan.run mode watched).2 := by
  refine ⟨fun s => ⟨s.turns_next, s.turns_readBody⟩, fun before later => ?_,
    fun source mode => ⟨fun demands => ?_, fun plan => ?_, fun demands rooms => ?_,
      fun demands => ?_⟩, fun first mode => ⟨fun demands => ?_, fun plan => ?_⟩⟩
  · exact Scanner.isHungry_of_ended (Scanner.ended_after_finish _ before) later
  · exact sparing_behind source boundary charset limits mode demands
  · exact sparing_run source boundary charset limits mode plan
  · have le := behind_remaining mode (opened source boundary charset limits) demands
    exact polls_end rooms (Nat.lt_succ_of_le le)
  · exact events_end mode (opened source boundary charset limits) demands
  · have begins := echoes_opened boundary charset limits first
    exact ⟨(kept_echoes.behind mode demands begins).told,
      sparing_behind (CutOff.start first) boundary charset limits mode demands⟩
  · have begins := echoes_opened boundary charset limits first
    have visitors := Visitors.keep_ofList (Action.keeps_visitors mode plan)
    exact ⟨(kept_echoes.transcript visitors timesOver begins).told,
      sparing_run (CutOff.start first) boundary charset limits mode plan⟩

end Reader

end HttpForms.Multipart
