import HttpForms.Proofs.Reader.PlainScripts
import HttpForms.Proofs.Reader.Schedules

/-!
# Where a reader is in its body

Events lead from item to item, and content never leads on to the next event: whatever is read of a
section, or is not read of it, the next event is the one behind the section. That takes a section that
a boundary line ends, since a section that the input cuts off fails for whoever reads to its end, and
for the others only when the next event is asked for.

Results:

1. `Reader.drain_stands` — what reading a section to its end comes to;
2. `Reader.nextEvent_awaits` — the next event is the first of the items that are awaited;
3. `Reader.pollKept_ahead` — polling changes nothing of what the next events tell;
4. `Reader.ahead_behind` — so many events lead to a section, whatever is read in between.
-/

namespace HttpForms.Multipart

namespace Scanner

/-! ## The end of a section -/

variable {s : Scanner}

theorem sound_of_region (elsewhere : s.phase.region ≠ .failed) : s.Sound := by
  intro cause failed
  rw [failed] at elsewhere
  exact elsewhere rfl

variable {t : Scanner} {rest : Bytes} {items : List Item} {room : Nat} {failure : Failure}

/-- In a section there is one reason only not to go on. -/
theorem readBody_error (body : s.phase = .body) (failed : s.readBody room = (.error failure, t)) :
    failure = .unterminatedBody := by
  rw [readBody, body] at failed
  rcases front : s.available with ⟨_ | _ | _ | _ | _, u⟩ <;> rw [front] at failed <;> cases failed
  exact available_error front

/-- Behind a boundary line it is too late for the body to lack one. -/
theorem Foresees.ne_unterminated (foresees : s.Foresees rest items)
    (behind : s.phase = .headers ∨ s.phase = .closed) : items ≠ [.failed .unterminatedBody] := by
  rintro rfl
  have ahead := foresees.2
  generalize s.buffer.bytes ++ rest = text at ahead
  rcases behind with phase | phase <;> rw [phase] at ahead
  · obtain ⟨-, parses⟩ := ahead
    cases parses
  · cases ahead

end Scanner

namespace Reader

variable {σ : Type} [ByteSource σ]

/-- Neither events nor content change the charset. -/
theorem kept_charset (charset : Charset) : Kept fun r : Reader σ => r.charset = charset where
  step {r _ _} same step := by
    have format := Scanner.format_next r.scanner
    rw [step] at format
    exact (congrArg Format.charset format).trans same
  content {r room _ _} same read := by
    have format := Scanner.format_readBody r.scanner room
    rw [read] at format
    exact (congrArg Format.charset format).trans same
  data {r bytes source} same _ _ _ := by
    show (if bytes.isEmpty then r.scanner.finish else r.scanner.feed bytes).charset = charset
    unfold Scanner.finish Scanner.feed
    split
    · exact same
    · split <;> exact same
  failed same _ _ _ := same
  again same _ _ _ _ := same

/-! ## Reading a section -/

section Reading

variable {r t : Reader σ} {mode : Mode} {items more : List Item} {content : Bytes} {room : Nat}

/-- Where a poll leads that ends the reading of a section. -/
def Settles : Polled (Except Failure Bytes) × Reader σ → Prop
  | (.ready (.ok []), t) => t.scanner.phase = .headers ∨ t.scanner.phase = .closed
  | (.ready (.error failure), t) =>
    failure = .unterminatedBody ∧ t.scanner.phase = .failed failure.replay
  | _ => True

theorem poll_settles (mode : Mode) (foresees : r.Foresees (.content content :: more))
    (body : r.scanner.phase = .body) (space : 0 < room) : Settles (r.poll mode room) := by
  fun_induction poll mode r room with
  | case1 r =>
    rename_i none
    exact absurd none (Nat.ne_of_gt space)
  | case2 r _ bytes s read =>
    obtain ⟨rest, ⟨left, -, solid, -⟩, -⟩ := foresees.readBody body space read
    obtain ⟨b, bytes, rfl⟩ := List.exists_cons_of_ne_nil solid
    trivial
  | case3 r _ s read =>
    obtain ⟨rest, ⟨-, phase, -⟩, -⟩ := foresees.readBody body space read
    exact phase
  | case4 r _ failure s read =>
    obtain ⟨rest, ⟨-, -, phase, -⟩, -⟩ := foresees.readBody body space read
    exact ⟨Scanner.readBody_error body read, phase⟩
  | case5 r _ s read t asked ih =>
    obtain ⟨phase, supplies⟩ := readBody_supplies mode foresees body space read
    rw [asked] at supplies
    exact ih supplies.1 (supplies.2.trans phase)
  | case6 r _ s read failure t asked =>
    obtain ⟨-, supplies⟩ := readBody_supplies mode foresees body space read
    rw [asked] at supplies
    exact supplies.elim
  | case7 r _ s read t asked => trivial

/-- How a section ends that is read to its end, by what comes behind it. -/
def ending (more : List Item) : Option Failure :=
  if more = [.failed .unterminatedBody] then some .unterminatedBody else none

/-- Where reading content leads, with the reason it stops there for. -/
def Ends (content : Bytes) (more : List Item) : Except Failure Bytes × Reader σ → Prop
  | (.ok [], t) =>
    content = [] ∧ ending more = none ∧ (t.scanner.phase = .headers ∨ t.scanner.phase = .closed) ∧
      pastContent more = more ∧ t.Foresees more
  | (.ok (b :: bytes), t) =>
    ∃ left, content = b :: bytes ++ left ∧ t.scanner.phase = .body ∧ t.Foresees (.content left :: more)
  | (.error failure, t) =>
    content = [] ∧ ending more = some failure ∧ t.scanner.phase = .failed failure.replay ∧ t.Foresees []

theorem poll_ends (mode : Mode) (foresees : r.Foresees (.content content :: more))
    (body : r.scanner.phase = .body) (space : 0 < room) :
    match r.poll mode room with
    | (.pending, t) => t.scanner.phase = .body ∧ t.Foresees (.content content :: more)
    | (.ready result, t) => Ends content more (result, t) := by
  have settles := poll_settles mode foresees body space
  have yields := poll_yields mode foresees body space
  rcases polled : r.poll mode room with ⟨_ | (_ | _ | _), t⟩ <;> rw [polled] at settles yields
  · exact yields
  · obtain ⟨rfl, phase⟩ := settles
    obtain ⟨nothing, rfl, onward⟩ := yields
    exact ⟨nothing, rfl, phase, onward⟩
  · obtain ⟨nothing, same, rest, ahead, gives⟩ := yields
    exact ⟨nothing, if_neg (ahead.ne_unterminated settles), settles, same, rest, ahead, gives⟩
  · exact yields

theorem read_ends (mode : Mode) (foresees : r.Foresees (.content content :: more))
    (body : r.scanner.phase = .body) (space : 0 < room) : Ends content more (r.read mode room) := by
  fun_induction read mode r room with
  | case1 r result t polled =>
    have ends := poll_ends mode foresees body space
    rw [polled] at ends
    exact ends
  | case2 r t polled ih =>
    have ends := poll_ends mode foresees body space
    rw [polled] at ends
    exact ih ends.2 ends.1

/-! ## Places -/

/-- Where a reader is, as far as whoever reads sections to their end can tell. -/
inductive Standing
  /-- In a section with so much left of its content, and these items behind it. -/
  | inside (content : Bytes) (more : List Item)
  /-- Behind the boundary line that ends a section. -/
  | behind (items : List Item)
  /-- Where a failure has stopped it. -/
  | stopped (cause : Failure)

/-- The reader is there. -/
def Stands : Standing → Reader σ → Prop
  | .inside content more, r => r.scanner.phase = .body ∧ r.Foresees (.content content :: more)
  | .behind items, r =>
    (r.scanner.phase = .headers ∨ r.scanner.phase = .closed) ∧ pastContent items = items ∧
      r.Foresees items
  | .stopped cause, r => r.scanner.phase = .failed cause ∧ r.Foresees []

/-- Where reading a section to its end leads, by what comes behind it. -/
def Standing.past (more : List Item) : Standing :=
  match ending more with
  | none => .behind more
  | some failure => .stopped failure.replay

/-- What reading a section to its end gives there, and where it leads. -/
def Standing.drain : Standing → Content × Standing
  | .inside content more => (⟨content, ending more⟩, .past more)
  | .behind items => (⟨[], none⟩, .behind items)
  | .stopped cause => (⟨[], some cause.replay⟩, .stopped cause)

/-- What the next events tell there. -/
def Standing.awaited : Standing → List Item
  | .inside _ more => more
  | .behind items => items
  | .stopped _ => []

theorem drain_inside (mode : Mode) (foresees : r.Foresees (.content content :: more))
    (body : r.scanner.phase = .body) :
    (r.drain mode).1 = ⟨content, ending more⟩ ∧ (r.drain mode).2.Stands (.past more) := by
  have space : 0 < portion := by decide
  fun_induction drain mode r generalizing content with
  | case1 r t read =>
    have ends := read_ends mode foresees body space
    rw [read] at ends
    obtain ⟨rfl, open_, onward⟩ := ends
    rw [Standing.past, open_]
    exact ⟨rfl, onward⟩
  | case2 r b bytes t read rest u drained ih =>
    have ends := read_ends mode foresees body space
    rw [read] at ends
    obtain ⟨left, rfl, body', onward⟩ := ends
    obtain ⟨same, stands⟩ := ih onward body'
    rw [drained] at same stands
    obtain rfl : rest = ⟨left, ending more⟩ := same
    exact ⟨rfl, stands⟩
  | case3 r failure t read =>
    have ends := read_ends mode foresees body space
    rw [read] at ends
    obtain ⟨rfl, failed, stopped⟩ := ends
    rw [Standing.past, failed]
    exact ⟨rfl, stopped⟩

/-- To read a section to its end gives what is left of its content, and says whether a boundary line
ends it. -/
theorem drain_stands (mode : Mode) {place : Standing} (stands : r.Stands place) :
    (r.drain mode).1 = place.drain.1 ∧ (r.drain mode).2.Stands place.drain.2 := by
  have space : 0 < portion := by decide
  cases place with
  | inside content more => exact drain_inside mode stands.2 stands.1
  | behind items =>
    have read : r.scanner.readBody portion = (.ok .finished, r.scanner) :=
      Scanner.readBody_of_sound (Scanner.sound_of_behind stands.1)
        (by rcases stands.1 with phase | phase <;> rw [phase] <;> exact nofun)
    rw [drain_step, read_step, poll_step mode r space, read]
    exact ⟨rfl, stands⟩
  | stopped cause =>
    have read : r.scanner.readBody portion = (.error cause.replay, r.scanner) := by
      rw [Scanner.readBody, stands.1]
    rw [drain_step, read_step, poll_step mode r space, read]
    exact ⟨rfl, stands⟩

/-- The next events tell these items. -/
def Awaits (items : List Item) (r : Reader σ) : Prop :=
  ∃ later, r.Foresees later ∧ pastContent later = items

theorem Stands.awaits {place : Standing} (stands : r.Stands place) : r.Awaits place.awaited := by
  cases place with
  | inside content more => exact ⟨_, stands.2, rfl⟩
  | behind items => exact ⟨_, stands.2.2, stands.2.1⟩
  | stopped cause => exact ⟨_, stands.2, rfl⟩

/-! ## Events -/

/-- The event that tells the first of these items. -/
def firstEvent : List Item → Except Failure (Option Event)
  | .preamble bytes :: _ => .ok (some (.preamble bytes))
  | .opened headers :: _ => .ok (some (.opened headers))
  | .epilogue bytes :: _ => .ok (some (.epilogue bytes))
  | .failed failure :: _ => .error failure
  | .content _ :: _ | [] => .ok none

/-- Where the event leads that tells the first of these items, if it opens a section. -/
def openedAt : List Item → Standing
  | .opened _ :: .content content :: more => .inside content more
  | more => .behind more

/-- What the events behind the first one tell of these items. -/
def laterItems : List Item → List Item
  | .opened _ :: .content _ :: more | .preamble _ :: more => more
  | _ => []

/-- The next event is the first of the items that are awaited. -/
theorem nextEvent_awaits (mode : Mode) (awaits : r.Awaits items) :
    (r.nextEvent mode).1 = firstEvent items ∧ (r.nextEvent mode).2.Awaits (laterItems items) ∧
      ∀ headers, (r.nextEvent mode).1 = .ok (some (.opened headers)) →
        (r.nextEvent mode).2.Stands (openedAt items) := by
  obtain ⟨later, foresees, rfl⟩ := awaits
  have tells := nextEvent_tells mode foresees
  rcases event : r.nextEvent mode with ⟨failure | _ | bytes | headers | bytes, t⟩ <;>
    rw [event] at tells
  · obtain ⟨first, -, onward⟩ := tells
    rw [first]
    exact ⟨rfl, ⟨[], onward, rfl⟩, nofun⟩
  · obtain ⟨first, onward⟩ := tells
    rw [first]
    exact ⟨rfl, ⟨[], onward, rfl⟩, nofun⟩
  · obtain ⟨more, first, same, onward⟩ := tells
    rw [first]
    exact ⟨rfl, ⟨more, onward, same⟩, nofun⟩
  · obtain ⟨content, more, first, body, onward⟩ := tells
    rw [first]
    exact ⟨rfl, ⟨_, onward, rfl⟩, fun _ _ => ⟨body, onward⟩⟩
  · obtain ⟨first, onward⟩ := tells
    rw [first]
    exact ⟨rfl, ⟨[], onward, rfl⟩, nofun⟩

end Reading

/-! ## Events and what is read in between -/

/-- The next events tell these items, and nothing has failed yet. -/
structure Ahead (items : List Item) (r : Reader σ) : Prop where
  sound : r.scanner.Sound
  awaits : r.Awaits items

section AheadLemmas

variable {r : Reader σ} {items before more : List Item} {headers : Headers} {content : Bytes}

/-- Where no content is read a poll leaves the reader as it is. -/
theorem poll_outside (mode : Mode) (outside : r.scanner.phase ≠ .body) (room : Nat) :
    (r.poll mode room).2 = r := by
  rcases Nat.eq_zero_or_pos room with rfl | space
  · rw [poll, if_pos rfl]
  · have same : (r.scanner.readBody room).2 = r.scanner := Scanner.readBody_outside outside
    have moves := Scanner.readBody_moves r.scanner room
    rw [poll_step mode r space]
    rcases read : r.scanner.readBody room with ⟨_ | _ | _ | _, s⟩ <;> rw [read] at same moves <;>
      cases same
    · rfl
    · exact absurd moves.1 outside
    · rfl
    · rfl

/-- Whatever is read of a section that a boundary line ends, the next events stay the same. -/
theorem pollKept_ahead (mode : Mode) (terminated : items ≠ [.failed .unterminatedBody]) :
    PollKept mode (Ahead (σ := σ) items) := by
  intro r room ahead
  by_cases body : r.scanner.phase = .body
  · obtain ⟨later, foresees, rfl⟩ := ahead.awaits
    obtain ⟨rest, scanner, gives⟩ := foresees
    obtain ⟨content, more, rfl⟩ := scanner.content_cons body
    rcases Nat.eq_zero_or_pos room with rfl | space
    · rwa [poll, if_pos rfl]
    · have ends := poll_ends mode ⟨rest, scanner, gives⟩ body space
      have live : ∀ {t : Reader σ}, t.scanner.phase = .body → t.scanner.Sound := fun phase =>
        Scanner.sound_of_live (by rw [phase]; rfl)
      rcases polled : r.poll mode room with ⟨_ | (_ | _ | _), t⟩ <;> rw [polled] at ends
      · exact ⟨live ends.1, _, ends.2, rfl⟩
      · have open_ : ending more = none := if_neg terminated
        obtain ⟨-, failed, -⟩ := ends
        rw [open_] at failed
        cases failed
      · obtain ⟨-, -, phase, same, onward⟩ := ends
        exact ⟨Scanner.sound_of_behind phase, more, onward, same⟩
      · obtain ⟨left, -, body', onward⟩ := ends
        exact ⟨live body', _, onward, rfl⟩
  · rwa [poll_outside mode body]

/-- How many events are asked for. -/
def asked : List Demand → Nat
  | [] => 0
  | .event :: later => asked later + 1
  | .content _ :: later => asked later

/-- How many events tell these items. -/
def eventsIn : List Item → Nat
  | [] => 0
  | .content _ :: more => eventsIn more
  | _ :: more => eventsIn more + 1

/-- No content is the first item that an event tells. -/
theorem Awaits.ne_content (awaits : r.Awaits items) : items ≠ .content content :: more := by
  rintro rfl
  obtain ⟨later, foresees, same⟩ := awaits
  have tells := nextEvent_tells .blocking foresees
  rcases event : r.nextEvent .blocking with ⟨_ | _ | _ | _ | _, t⟩ <;> rw [event] at tells <;>
    simp only [Tells, same] at tells
  · cases tells.1
  · cases tells.1
  · obtain ⟨_, first, -⟩ := tells
    cases first
  · obtain ⟨_, _, first, -⟩ := tells
    cases first
  · cases tells.1

theorem Awaits.pastContent_eq (awaits : r.Awaits items) : pastContent items = items := by
  unfold pastContent
  split
  · exact absurd rfl awaits.ne_content
  · rfl

/-- An event that is told has not failed. -/
theorem sound_of_nextEvent {mode : Mode} {event : Event} {t : Reader σ}
    (told : r.nextEvent mode = (.ok (some event), t)) : t.scanner.Sound := by
  fun_induction Reader.nextEvent mode r with
  | case1 r bytes s step | case2 r headers s step | case3 r bytes s step =>
    have moves := Scanner.next_moves r.scanner
    rw [step] at moves
    cases told
    exact Scanner.sound_of_region (by rw [moves.2]; decide)
  | case4 | case5 | case7 => cases told
  | case6 r s step t' filled ih => exact ih told

/-- So many events lead to a section, whatever is read in between. -/
theorem ahead_behind (mode : Mode) {demands : List Demand}
    (ahead : r.Ahead (before ++ .opened headers :: .content content :: more))
    (reached : asked demands = eventsIn before) :
    (r.behind mode demands).Ahead (.opened headers :: .content content :: more) := by
  induction demands generalizing r before with
  | nil =>
    cases before with
    | nil => exact ahead
    | cons item before =>
      cases item with
      | content bytes => exact absurd rfl ahead.awaits.ne_content
      | preamble | opened | epilogue | failed => cases reached
  | cons demand later ih =>
    cases demand with
    | content room =>
      exact ih (pollKept_ahead mode (by cases before <;> simp) r room ahead) reached
    | event =>
      obtain ⟨foreseen, foresees, same⟩ := ahead.awaits
      have tells := nextEvent_tells mode foresees
      cases before with
      | nil => cases reached
      | cons item before =>
        rcases told : r.nextEvent mode with ⟨_ | _ | _ | _ | _, t⟩ <;> rw [told] at tells <;>
          simp only [Tells, same, List.cons_append, List.cons.injEq] at tells
        · simp at tells
        · simp at tells
        · obtain ⟨_, ⟨rfl, rfl⟩, next, onward⟩ := tells
          rw [behind, told]
          exact ih ⟨sound_of_nextEvent told, _, onward, next⟩ (Nat.succ.inj reached)
        · obtain ⟨_, _, ⟨rfl, rest⟩, body, onward⟩ := tells
          cases before with
          | nil => cases (List.cons.inj rest).1
          | cons item before =>
            obtain ⟨rfl, rfl⟩ := List.cons.inj rest
            rw [behind, told]
            exact ih ⟨sound_of_nextEvent told, _, onward, rfl⟩ (Nat.succ.inj reached)
        · simp at tells

end AheadLemmas

end Reader

end HttpForms.Multipart
