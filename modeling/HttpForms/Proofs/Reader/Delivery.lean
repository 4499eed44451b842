import HttpForms.Multipart.Form
import HttpForms.Proofs.Scanner.Content

/-!
# Readers tell what their scanners foresee

A reader adds a source to a scanner. All that matters of a source that comes to its end is which
octets it gives until then: neither how it cuts them nor how often it has to be asked again makes a
difference to what the reader tells.

Results:

1. `nextEvent_tells` — the next event is the next item that is foreseen;
2. `drain_drains` — draining a section gives the content that is foreseen.
-/

namespace HttpForms.Multipart

/-! ## Sources -/

/-- A source that is asked for so many octets at a time gives these octets and then ends. -/
inductive Gives {σ : Type} [ByteSource σ] (room : Nat) : σ → Bytes → Prop
  | data {source next : σ} {chunk rest : Bytes} :
      ByteSource.poll source room = (.data chunk, next) → chunk ≠ [] → Gives room next rest →
      Gives room source (chunk ++ rest)
  | ended {source next : σ} : ByteSource.poll source room = (.data [], next) →
      Gives room source []
  | interrupted {source next : σ} {bytes : Bytes} :
      ByteSource.poll source room = (.interrupted, next) → Gives room next bytes →
      Gives room source bytes
  | pending {source next : σ} {bytes : Bytes} :
      ByteSource.poll source room = (.pending, next) → Gives room next bytes →
      Gives room source bytes

namespace Gives

variable {σ : Type} [ByteSource σ] {room : Nat} {source next : σ} {bytes chunk : Bytes}

theorem of_data (gives : Gives room source bytes)
    (asked : ByteSource.poll source room = (.data chunk, next)) :
    (chunk = [] ∧ bytes = []) ∨
      (chunk ≠ [] ∧ ∃ rest, bytes = chunk ++ rest ∧ Gives room next rest) := by
  cases gives with
  | @data _ _ chunk' rest polled solid later =>
    obtain ⟨rfl, rfl⟩ : chunk = chunk' ∧ next = _ := by simpa using asked.symm.trans polled
    exact .inr ⟨solid, rest, rfl, later⟩
  | ended polled =>
    obtain ⟨rfl, -⟩ : chunk = [] ∧ next = _ := by simpa using asked.symm.trans polled
    exact .inl ⟨rfl, rfl⟩
  | interrupted polled => simp [asked] at polled
  | pending polled => simp [asked] at polled

/-- Having to ask again takes nothing away. -/
theorem of_again {answer : Poll} (gives : Gives room source bytes)
    (asked : ByteSource.poll source room = (answer, next)) (again : answer.isAgain = true) :
    Gives room next bytes := by
  cases gives with
  | data polled | ended polled =>
    cases asked.symm.trans polled
    cases again
  | interrupted polled later | pending polled later =>
    obtain ⟨-, rfl⟩ := Prod.mk.inj (asked.symm.trans polled)
    exact later

theorem not_failed {error : StreamError} (gives : Gives room source bytes) :
    ByteSource.poll source room ≠ (.failed error, next) := by
  intro asked
  cases gives with
  | data polled | ended polled | interrupted polled | pending polled => simp [asked] at polled

end Gives

namespace Reader

variable {σ : Type} [ByteSource σ]

/-- With the octets that its source gives, the items are what is left of the body. -/
def Foresees (r : Reader σ) (items : List Item) : Prop :=
  ∃ rest, r.scanner.Foresees rest items ∧
    (r.scanner.ended = false → Gives r.chunkSize r.source rest)

section Asking

variable {r t : Reader σ} {items later more : List Item} {mode : Mode} {content : Bytes}

/-- What a source that comes to its end may answer. -/
def Supplies (r : Reader σ) (items : List Item) :
    Polled (Except Failure Unit) × Reader σ → Prop
  | (.pending, t) => t.Foresees items ∧ t.scanner = r.scanner
  | (.ready (.ok ()), t) => t.Foresees items ∧ t.scanner.phase = r.scanner.phase
  | (.ready (.error _), _) => False

theorem absorb_supplies {source : σ} {bytes : Bytes} (foresees : r.Foresees items)
    (open_ : r.scanner.ended = false)
    (asked : ByteSource.poll r.source r.chunkSize = (.data bytes, source)) :
    Supplies r items (.ready (.ok ()), r.absorb source bytes) := by
  obtain ⟨rest, ahead, gives⟩ := foresees
  rcases (gives open_).of_data asked with ⟨rfl, rfl⟩ | ⟨solid, rest, rfl, later⟩
  · exact ⟨⟨[], ahead.finish, fun more => Bool.noConfusion more⟩, rfl⟩
  · have fed : (r.absorb source bytes).scanner = r.scanner.feed bytes := by
      simp [absorb, List.isEmpty_eq_false_iff.2 solid]
    refine ⟨⟨rest, ?_, fun _ => later⟩, ?_⟩
    · rw [fed]
      exact ahead.feed
    · rw [fed, Scanner.phase_feed]

theorem Supplies.again {source : σ} {result : Polled (Except Failure Unit) × Reader σ}
    (supplies : Supplies { r with source := source } items result) : Supplies r items result := by
  match result, supplies with
  | (.pending, t), h => exact h
  | (.ready (.ok ()), t), h => exact h

theorem ask_supplies (mode : Mode) (foresees : r.Foresees items) (open_ : r.scanner.ended = false) :
    Supplies r items (r.ask mode) := by
  fun_induction ask mode r with
  | case1 mode r bytes source asked => exact absorb_supplies foresees open_ asked
  | case2 mode r error source asked =>
    obtain ⟨_, -, gives⟩ := foresees
    exact absurd asked (gives open_).not_failed
  | case3 mode r source asked ih =>
    obtain ⟨rest, ahead, gives⟩ := foresees
    exact (ih ⟨rest, ahead, fun _ => (gives open_).of_again asked rfl⟩ open_).again
  | case4 r source asked ih =>
    obtain ⟨rest, ahead, gives⟩ := foresees
    exact (ih ⟨rest, ahead, fun _ => (gives open_).of_again asked rfl⟩ open_).again
  | case5 r source asked =>
    obtain ⟨rest, ahead, gives⟩ := foresees
    exact ⟨⟨rest, ahead, fun _ => (gives open_).of_again asked rfl⟩, rfl⟩

/-- Waiting for the source leads to its answer. -/
theorem fill_supplies (mode : Mode) (foresees : r.Foresees items) (open_ : r.scanner.ended = false) :
    Supplies r items (.ready (r.fill mode).1, (r.fill mode).2) := by
  fun_induction fill mode r with
  | case1 r result t asked =>
    have supplies := ask_supplies mode foresees open_
    rw [asked] at supplies
    exact supplies
  | case2 r t asked ih =>
    have supplies := ask_supplies mode foresees open_
    rw [asked] at supplies
    obtain ⟨later, same⟩ := supplies
    have filled := ih later (by rw [same]; exact open_)
    rcases answer : t.fill mode with ⟨_ | _, u⟩ <;> rw [answer] at filled
    · exact filled
    · exact ⟨filled.1, by rw [filled.2, same]⟩

/-! ## Events -/

/-- What an event may be when these items are foreseen. -/
def Tells (items : List Item) : Except Failure (Option Event) × Reader σ → Prop
  | (.ok (some (.preamble bytes)), t) =>
    ∃ more, pastContent items = .preamble bytes :: more ∧ pastContent more = more ∧ t.Foresees more
  | (.ok (some (.opened headers)), t) =>
    ∃ content more, pastContent items = .opened headers :: .content content :: more ∧
      t.scanner.phase = .body ∧ t.Foresees (.content content :: more)
  | (.ok (some (.epilogue bytes)), t) => pastContent items = [.epilogue bytes] ∧ t.Foresees []
  | (.ok none, t) => pastContent items = [] ∧ t.Foresees []
  | (.error failure, t) =>
    pastContent items = [.failed failure] ∧ t.scanner.phase = .failed failure.replay ∧ t.Foresees []

theorem Tells.of_pastContent {result : Except Failure (Option Event) × Reader σ}
    (tells : Tells items result) (same : pastContent later = pastContent items) :
    Tells later result := by
  match result, tells with
  | (.ok (some (.preamble _)), t), ⟨more, next, onward⟩ => exact ⟨more, same.trans next, onward⟩
  | (.ok (some (.opened _)), t), ⟨content, more, next, onward⟩ =>
    exact ⟨content, more, same.trans next, onward⟩
  | (.ok (some (.epilogue _)), t), h => exact ⟨same.trans h.1, h.2⟩
  | (.ok none, t), h => exact ⟨same.trans h.1, h.2⟩
  | (.error _, t), h => exact ⟨same.trans h.1, h.2⟩

/-- Behind an answer of the scanner its reader foresees what the scanner does. -/
theorem Foresees.step {s : Scanner} {rest : Bytes} (ahead : s.Foresees rest items)
    (gives : r.scanner.ended = false → Gives r.chunkSize r.source rest)
    (ended : s.ended = r.scanner.ended) :
    Foresees { r with scanner := s } items :=
  ⟨rest, ahead, fun open_ => gives (ended ▸ open_)⟩

theorem Foresees.next {answer : Except Failure Step × Scanner} (foresees : r.Foresees items)
    (step : r.scanner.next = answer) :
    ∃ rest, Scanner.Tells rest items answer ∧ r.scanner.Advances answer ∧
      (r.scanner.ended = false → Gives r.chunkSize r.source rest) := by
  obtain ⟨rest, ahead, gives⟩ := foresees
  obtain ⟨tells, advances⟩ := ahead.next step
  exact ⟨rest, tells, advances, gives⟩

/-- Where the scanner asks for input before a step, the source has it. -/
theorem next_supplies {s : Scanner} (mode : Mode) (foresees : r.Foresees items)
    (step : r.scanner.next = (.ok .needInput, s)) :
    ∃ later, pastContent later = pastContent items ∧ Supplies { r with scanner := s } later
      (.ready (fill mode { r with scanner := s }).1, (fill mode { r with scanner := s }).2) := by
  obtain ⟨rest, ⟨open_, later, same, onward⟩, advances, gives⟩ := foresees.next step
  exact ⟨later, same, fill_supplies mode (.step onward gives (open_.trans advances.1.symm)) open_⟩

theorem nextEvent_tells (mode : Mode) (foresees : r.Foresees items) :
    Tells items (r.nextEvent mode) := by
  fun_induction nextEvent mode r generalizing items with
  | case1 r bytes s step =>
    obtain ⟨rest, ⟨more, same, phase, onward⟩, advances, gives⟩ := foresees.next step
    exact ⟨more, same, onward.behind phase, .step onward gives advances.1⟩
  | case2 r headers s step =>
    obtain ⟨rest, ⟨content, more, same, body, onward⟩, advances, gives⟩ := foresees.next step
    exact ⟨content, more, same, body, .step onward gives advances.1⟩
  | case3 r bytes s step =>
    obtain ⟨rest, ⟨same, -, onward⟩, advances, gives⟩ := foresees.next step
    exact ⟨same, .step onward gives advances.1⟩
  | case4 r s step =>
    obtain ⟨rest, ⟨same, onward⟩, advances, gives⟩ := foresees.next step
    exact ⟨same, .step onward gives (by rw [advances.2])⟩
  | case5 r failure s step =>
    obtain ⟨rest, ⟨same, failed, onward⟩, advances, gives⟩ := foresees.next step
    exact ⟨same, failed, .step onward gives advances.1⟩
  | case6 r s step t filled ih =>
    obtain ⟨later, same, supplies⟩ := next_supplies mode foresees step
    rw [filled] at supplies
    exact (ih supplies.1).of_pastContent same.symm
  | case7 r s step failure t filled =>
    obtain ⟨later, same, supplies⟩ := next_supplies mode foresees step
    rw [filled] at supplies
    exact supplies.elim

/-! ## Content -/

/-- What reading may give when this content is foreseen, and these items behind it. -/
def Yields (content : Bytes) (more : List Item) : Except Failure Bytes × Reader σ → Prop
  | (.ok [], t) => content = [] ∧ pastContent more = more ∧ t.Foresees more
  | (.ok (b :: bytes), t) =>
    ∃ left, content = b :: bytes ++ left ∧ t.scanner.phase = .body ∧ t.Foresees (.content left :: more)
  | (.error failure, t) => content = [] ∧ more = [.failed failure] ∧ t.Foresees []

/-- What asking for content may give. -/
def PollYields (content : Bytes) (more : List Item) :
    Polled (Except Failure Bytes) × Reader σ → Prop
  | (.pending, t) => t.scanner.phase = .body ∧ t.Foresees (.content content :: more)
  | (.ready result, t) => Yields content more (result, t)

theorem Foresees.readBody {room : Nat} {answer : Except Failure Portion × Scanner}
    (foresees : r.Foresees (.content content :: more)) (body : r.scanner.phase = .body)
    (space : 0 < room) (read : r.scanner.readBody room = answer) :
    ∃ rest, Scanner.Yields rest content more answer ∧ r.scanner.Reads answer ∧
      (r.scanner.ended = false → Gives r.chunkSize r.source rest) := by
  obtain ⟨rest, ahead, gives⟩ := foresees
  obtain ⟨yields, reads⟩ := ahead.readBody body space read
  exact ⟨rest, yields, reads, gives⟩

/-- Where the scanner asks for input before content, the source has it. -/
theorem readBody_supplies {room : Nat} {s : Scanner} (mode : Mode)
    (foresees : r.Foresees (.content content :: more)) (body : r.scanner.phase = .body)
    (space : 0 < room) (read : r.scanner.readBody room = (.ok .needInput, s)) :
    s.phase = .body ∧ Supplies { r with scanner := s } (.content content :: more)
      (ask mode { r with scanner := s }) := by
  obtain ⟨rest, ⟨open_, body', onward⟩, reads, gives⟩ := foresees.readBody body space read
  exact ⟨body', ask_supplies mode (.step onward gives (open_.trans reads.1.symm)) open_⟩

theorem poll_yields {room : Nat} (mode : Mode) (foresees : r.Foresees (.content content :: more))
    (body : r.scanner.phase = .body) (space : 0 < room) :
    PollYields content more (r.poll mode room) := by
  fun_induction poll mode r room with
  | case1 r =>
    rename_i none
    exact absurd none (Nat.ne_of_gt space)
  | case2 r _ bytes s read =>
    obtain ⟨rest, ⟨left, same, solid, body', onward⟩, reads, gives⟩ := foresees.readBody body space read
    obtain ⟨b, bytes, rfl⟩ := List.exists_cons_of_ne_nil solid
    exact ⟨left, same, body', .step onward gives reads.1⟩
  | case3 r _ s read =>
    obtain ⟨rest, ⟨nothing, phase, onward⟩, reads, gives⟩ := foresees.readBody body space read
    exact ⟨nothing, onward.behind phase, .step onward gives reads.1⟩
  | case4 r _ failure s read =>
    obtain ⟨rest, ⟨nothing, only, -, onward⟩, reads, gives⟩ := foresees.readBody body space read
    exact ⟨nothing, only, .step onward gives reads.1⟩
  | case5 r _ s read t asked ih =>
    obtain ⟨phase, supplies⟩ := readBody_supplies mode foresees body space read
    rw [asked] at supplies
    exact ih supplies.1 (supplies.2.trans phase)
  | case6 r _ s read failure t asked =>
    obtain ⟨-, supplies⟩ := readBody_supplies mode foresees body space read
    rw [asked] at supplies
    exact supplies.elim
  | case7 r _ s read t asked =>
    obtain ⟨phase, supplies⟩ := readBody_supplies mode foresees body space read
    rw [asked] at supplies
    exact ⟨by rw [supplies.2]; exact phase, supplies.1⟩

theorem read_yields {room : Nat} (mode : Mode) (foresees : r.Foresees (.content content :: more))
    (body : r.scanner.phase = .body) (space : 0 < room) :
    Yields content more (r.read mode room) := by
  fun_induction read mode r room with
  | case1 r result t polled =>
    have yields := poll_yields mode foresees body space
    rw [polled] at yields
    exact yields
  | case2 r t polled ih =>
    have yields := poll_yields mode foresees body space
    rw [polled] at yields
    exact ih yields.2 yields.1

/-- What reading to the end may give: all content, and a failure only where it is the last item. -/
def Drains (content : Bytes) (more : List Item) : Content × Reader σ → Prop
  | (⟨bytes, none⟩, t) => bytes = content ∧ pastContent more = more ∧ t.Foresees more
  | (⟨bytes, some failure⟩, t) => bytes = content ∧ more = [.failed failure] ∧ t.Foresees []

theorem drain_drains (mode : Mode) (foresees : r.Foresees (.content content :: more))
    (body : r.scanner.phase = .body) : Drains content more (r.drain mode) := by
  have space : 0 < portion := by decide
  fun_induction drain mode r generalizing content with
  | case1 r t read =>
    have yields := read_yields mode foresees body space
    rw [read] at yields
    exact ⟨yields.1.symm, yields.2⟩
  | case2 r b bytes t read rest u drained ih =>
    have yields := read_yields mode foresees body space
    rw [read] at yields
    obtain ⟨left, rfl, body', onward⟩ := yields
    have drains := ih onward body'
    rw [drained] at drains
    rcases rest with ⟨bytes', _ | failure⟩
    · obtain ⟨rfl, behind⟩ := drains
      exact ⟨rfl, behind⟩
    · obtain ⟨rfl, behind⟩ := drains
      exact ⟨rfl, behind⟩
  | case3 r failure t read =>
    have yields := read_yields mode foresees body space
    rw [read] at yields
    exact ⟨yields.1.symm, yields.2⟩

/-- Content behind which the body goes on is read as a whole. -/
theorem readAll_yields (mode : Mode) (foresees : r.Foresees (.content content :: more))
    (body : r.scanner.phase = .body) (whole : ∀ failure, more ≠ [.failed failure]) :
    (r.readAll mode).1 = .ok content ∧ (r.readAll mode).2.Foresees more := by
  have drains := drain_drains mode foresees body
  unfold readAll
  rcases drained : r.drain mode with ⟨⟨bytes, _ | failure⟩, t⟩ <;> rw [drained] at drains
  · obtain ⟨rfl, -, onward⟩ := drains
    exact ⟨rfl, onward⟩
  · exact absurd drains.2.1 (whole failure)

end Asking

end Reader

end HttpForms.Multipart
