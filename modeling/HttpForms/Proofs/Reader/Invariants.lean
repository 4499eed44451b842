import HttpForms.Multipart.Plan
import HttpForms.Proofs.Scanner.Phases

/-!
# What a reader keeps

A reader does three things only: it asks its scanner for a step, it asks its scanner for content, and
where the scanner needs input it asks its source. A statement about readers that these three keep is
kept by everything that a reader does, and a plan, however deep it is nested, does nothing with a
section but polling the reader of it.

Results:

1. `Kept.poll`, `Kept.nextEvent` — what the three keep is kept by polling and by asking for events;
2. `Action.keeps_visitor` — what polling keeps is kept by every action;
3. `Kept.transcript` — and so by the reading of a whole body.
-/

namespace HttpForms.Multipart

namespace Reader

variable {σ : Type}

/-- A new reader of a body with this boundary. -/
def opened (source : σ) (boundary : Boundary) (charset : Charset) (limits : Limits) : Reader σ :=
  ⟨source, .new boundary charset limits, limits.chunkSize⟩

/-- Whether there is a new reader does not depend on the source. -/
theorem new_eq (source : σ) (text : String) (charset : Charset) (limits : Limits) :
    new source text charset limits =
      (Boundary.ofString text).map fun boundary => opened source boundary charset limits := by
  unfold new Scanner.ofText
  cases Boundary.ofString text <;> rfl

variable [ByteSource σ]

/-- A statement about readers that is kept by what a scanner and a source do. A source is asked only
where the scanner needs input, so its input has not ended and a step can still come. -/
structure Kept (P : Reader σ → Prop) : Prop where
  step : ∀ {r result s}, P r → r.scanner.next = (result, s) → P { r with scanner := s }
  content : ∀ {r room result s}, P r → r.scanner.readBody room = (result, s) →
    P { r with scanner := s }
  data : ∀ {r bytes source}, P r → r.scanner.ended = false → r.scanner.phase.isLive = true →
    ByteSource.poll r.source r.chunkSize = (.data bytes, source) → P (r.absorb source bytes)
  failed : ∀ {r error source}, P r → r.scanner.ended = false → r.scanner.phase.isLive = true →
    ByteSource.poll r.source r.chunkSize = (.failed error, source) → P (r.stop source error)
  again : ∀ {r answer source}, P r → r.scanner.ended = false → r.scanner.phase.isLive = true →
    ByteSource.poll r.source r.chunkSize = (answer, source) → answer.isAgain = true →
    P { r with source := source }

/-- A statement about readers that polling keeps. -/
def PollKept (mode : Mode) (P : Reader σ → Prop) : Prop :=
  ∀ r room, P r → P (r.poll mode room).2

section KeptLemmas

variable {P : Reader σ → Prop} {mode : Mode} {r : Reader σ}

theorem Kept.ask (kept : Kept P) (mode : Mode) (holds : P r) (open_ : r.scanner.ended = false)
    (live : r.scanner.phase.isLive = true) : P (r.ask mode).2 := by
  fun_induction Reader.ask mode r with
  | case1 mode r bytes source asked => exact kept.data holds open_ live asked
  | case2 mode r error source asked => exact kept.failed holds open_ live asked
  | case3 mode r source asked ih => exact ih (kept.again holds open_ live asked rfl) open_ live
  | case4 r source asked ih => exact ih (kept.again holds open_ live asked rfl) open_ live
  | case5 r source asked => exact kept.again holds open_ live asked rfl

theorem Kept.fill (kept : Kept P) (mode : Mode) (holds : P r) (open_ : r.scanner.ended = false)
    (live : r.scanner.phase.isLive = true) : P (r.fill mode).2 := by
  fun_induction Reader.fill mode r with
  | case1 r result t asked =>
    have after := kept.ask mode holds open_ live
    rwa [asked] at after
  | case2 r t asked ih =>
    have after := kept.ask mode holds open_ live
    have asks := ask_progress mode r
    rw [asked] at after asks
    obtain ⟨same, -⟩ := asks
    exact ih after (by rw [same]; exact open_) (by rw [same]; exact live)

theorem Kept.nextEvent (kept : Kept P) (mode : Mode) (holds : P r) : P (r.nextEvent mode).2 := by
  fun_induction Reader.nextEvent mode r with
  | case1 r bytes s step => exact kept.step holds step
  | case2 r headers s step => exact kept.step holds step
  | case3 r bytes s step => exact kept.step holds step
  | case4 r s step => exact kept.step holds step
  | case5 r failure s step => exact kept.step holds step
  | case6 r s step t filled ih =>
    have advances := Scanner.next_advances r.scanner
    rw [step] at advances
    have after := kept.fill mode (kept.step holds step) advances.2.1 advances.2.2.1
    rw [filled] at after
    exact ih after
  | case7 r s step failure t filled =>
    have advances := Scanner.next_advances r.scanner
    rw [step] at advances
    have after := kept.fill mode (kept.step holds step) advances.2.1 advances.2.2.1
    rwa [filled] at after

/-- Where content needs input the source may be asked. -/
theorem Kept.ask_of_needInput (kept : Kept P) (mode : Mode) {room : Nat} {s : Scanner} (holds : P r)
    (read : r.scanner.readBody room = (.ok .needInput, s)) :
    P (Reader.ask mode { r with scanner := s }).2 := by
  have reads := Scanner.readBody_reads r.scanner room
  have moves := Scanner.readBody_moves r.scanner room
  rw [read] at reads moves
  refine kept.ask mode (kept.content holds read) reads.2.1 ?_
  rw [show s.phase = .body from moves.2]
  rfl

theorem Kept.poll (kept : Kept P) (mode : Mode) : PollKept mode P := by
  intro r room holds
  fun_induction Reader.poll mode r room with
  | case1 r => exact holds
  | case2 r _ bytes s read => exact kept.content holds read
  | case3 r _ s read => exact kept.content holds read
  | case4 r _ failure s read => exact kept.content holds read
  | case5 r _ s read t asked ih =>
    have after := kept.ask_of_needInput mode holds read
    rw [asked] at after
    exact ih after
  | case6 r _ s read failure t asked =>
    have after := kept.ask_of_needInput mode holds read
    rwa [asked] at after
  | case7 r _ s read t asked =>
    have after := kept.ask_of_needInput mode holds read
    rwa [asked] at after

theorem PollKept.read (kept : PollKept mode P) (room : Nat) (holds : P r) :
    P (r.read mode room).2 := by
  fun_induction Reader.read mode r room with
  | case1 r result t polled =>
    have after := kept r room holds
    rwa [polled] at after
  | case2 r t polled ih =>
    have after := kept r room holds
    rw [polled] at after
    exact ih after

theorem PollKept.drain (kept : PollKept mode P) (holds : P r) : P (r.drain mode).2 := by
  fun_induction Reader.drain mode r with
  | case1 r t read =>
    have after := kept.read portion holds
    rwa [read] at after
  | case2 r b bytes t read rest u drained ih =>
    have after := kept.read portion holds
    rw [read] at after
    have onward := ih after
    rwa [drained] at onward
  | case3 r failure t read =>
    have after := kept.read portion holds
    rwa [read] at after

end KeptLemmas

end Reader

/-! ## Visitors -/

/-- Whatever polling keeps, a visitor keeps. -/
structure Visitor.Keeps (mode : Mode) (v : Visitor) : Prop where
  visit : ∀ {σ : Type} [ByteSource σ] {P : Reader σ → Prop}, Reader.PollKept mode P →
    ∀ headers r, P r → P (v.visit headers r).2

/-- All visitors keep what polling keeps. -/
structure Visitors.Keep (mode : Mode) (vs : Visitors) : Prop where
  first : vs.first.Keeps mode
  later : ∀ v ∈ vs.later, v.Keeps mode

section VisitorLemmas

variable {mode : Mode} {v w : Visitor} {vs : Visitors} {σ : Type} [ByteSource σ]
  {P : Reader σ → Prop} {r : Reader σ}

theorem Visitors.Keep.next (keep : vs.Keep mode) : vs.next.Keep mode := by
  obtain ⟨first, later⟩ := vs
  cases later with
  | nil => exact keep
  | cons v later =>
    exact ⟨keep.later v List.mem_cons_self, fun w there => keep.later w (List.mem_cons_of_mem _ there)⟩

/-- What is kept by scanner, source and visitors is kept by the reading of a body. -/
theorem Reader.Kept.transcript (kept : Reader.Kept P) (keep : vs.Keep mode) (times : Nat)
    (holds : P r) : P (r.transcript mode vs times).2 := by
  fun_induction Reader.transcript mode vs times r with
  | case1 => exact holds
  | case4 vs r times headers t event visited entries u rest ih =>
    have after := kept.nextEvent mode holds
    rw [event] at after
    have onward := ih keep.next (keep.first.visit (kept.poll mode) headers t after)
    rwa [rest] at onward
  | case2 vs r times bytes t event entries u rest ih
  | case3 vs r times bytes t event entries u rest ih
  | case5 vs r times t event entries u rest ih
  | case6 vs r times failure t event entries u rest ih =>
    have after := kept.nextEvent mode holds
    rw [event] at after
    have onward := ih keep after
    rwa [rest] at onward

/-- As a source, a section does nothing with its reader but polling it. -/
theorem Section.reader_of_poll {section_ next : Section mode σ} {room : Nat} {answer : Poll}
    (asked : ByteSource.poll section_ room = (answer, next)) :
    next.reader = (section_.reader.poll mode room).2 := by
  have polled : section_.poll room = (answer, next) := asked
  unfold Section.poll at polled
  rcases reading : section_.reader.poll mode room with ⟨_ | _ | _, t⟩ <;> rw [reading] at polled <;>
    cases polled <;> rfl

theorem Reader.PollKept.nested (kept : Reader.PollKept mode P) :
    Reader.Kept fun r : Reader (Section mode σ) => P r.source.reader where
  step holds _ := holds
  content holds _ := holds
  data holds _ _ asked := Section.reader_of_poll asked ▸ kept _ _ holds
  failed holds _ _ asked := Section.reader_of_poll asked ▸ kept _ _ holds
  again holds _ _ asked _ := Section.reader_of_poll asked ▸ kept _ _ holds

omit [ByteSource σ] in
theorem Reader.source_of_ofContentType {source : σ} {contentType : String} {charset : Charset}
    (made : Reader.ofContentType source contentType charset = .ok r) : r.source = source := by
  unfold Reader.ofContentType at made
  split at made
  · rename_i boundary _
    rw [Reader.new_eq] at made
    cases valid : Boundary.ofString boundary with
    | error failure =>
      rw [valid] at made
      cases made
    | ok b =>
      rw [valid] at made
      cases made
      rfl
  · cases made

theorem Visitor.keeps_ignore : Visitor.ignore.Keeps mode where
  visit _ _ _ holds := holds

theorem Visitor.Keeps.followedBy (first : v.Keeps mode) (second : w.Keeps mode) :
    (v.followedBy w).Keeps mode where
  visit kept headers r holds := second.visit kept headers _ (first.visit kept headers r holds)

theorem Visitor.keeps_all : (Visitor.all mode).Keeps mode where
  visit kept _ _ holds := by
    simp only [Visitor.all, Reader.readAll_snd]
    exact kept.drain holds

theorem Visitor.keeps_text : (Visitor.text mode).Keeps mode where
  visit kept _ _ holds := by
    simp only [Visitor.text, Reader.readText, Reader.readAll_snd]
    exact kept.drain holds

theorem Visitor.keeps_portion (room : Nat) : (Visitor.portion mode room).Keeps mode where
  visit kept _ _ holds := kept.read room holds

theorem Visitor.keeps_toEnd : (Visitor.toEnd mode).Keeps mode where
  visit kept _ _ holds := by
    simp only [Visitor.toEnd, Reader.readToEnd_snd]
    exact kept.drain holds

theorem Visitor.keeps_skip : (Visitor.skip mode).Keeps mode where
  visit kept _ _ holds := by
    simp only [Visitor.skip, Reader.skip, Reader.readAll_snd]
    exact kept.drain holds

/-- A body that is read inside of a section polls the reader of the section at most. -/
theorem Visitor.keeps_nested (keep : vs.Keep mode) (times : Nat) :
    (Visitor.nested mode vs times).Keeps mode where
  visit {σ _ P} kept headers r holds := by
    simp only [Visitor.nested]
    split
    · exact holds
    · rename_i inner made
      have begins : P inner.source.reader := by
        rw [Reader.source_of_ofContentType made]
        exact holds
      exact kept.nested.transcript keep times begins

/-- Visitors that keep what polling keeps do so one after the other. -/
theorem Visitors.keep_ofList {list : List Visitor} (keep : ∀ v ∈ list, v.Keeps mode) :
    (Visitors.ofList mode list).Keep mode := by
  cases list with
  | nil => exact ⟨Visitor.keeps_all, fun _ there => by cases there⟩
  | cons v later =>
    exact ⟨keep v List.mem_cons_self, fun w there => keep w (List.mem_cons_of_mem _ there)⟩

end VisitorLemmas

namespace Action

mutual

/-- An action does nothing with the reader of its section but polling it. -/
theorem keeps_visitor (mode : Mode) : ∀ action : Action, (visitor mode action).Keeps mode
  | .all => Visitor.keeps_all
  | .text => Visitor.keeps_text
  | .portion room => Visitor.keeps_portion room
  | .toEnd => Visitor.keeps_toEnd
  | .skip => Visitor.keeps_skip
  | .nested plan => Visitor.keeps_nested (Visitors.keep_ofList (keeps_visitors mode plan)) timesOver

theorem keeps_sequence (mode : Mode) : ∀ actions : List Action, (sequence mode actions).Keeps mode
  | [] => Visitor.keeps_ignore
  | action :: rest => by
    rw [sequence]
    split
    · exact keeps_visitor mode action
    · exact (keeps_visitor mode action).followedBy (keeps_sequence mode rest)

theorem keeps_visitors (mode : Mode) :
    ∀ plan : Plan, ∀ v ∈ visitors mode plan, v.Keeps mode
  | [], _, there => by cases there
  | actions :: plan, v, there => by
    rcases List.mem_cons.1 there with rfl | later
    · exact keeps_sequence mode actions
    · exact keeps_visitors mode plan v later

end

end Action

end HttpForms.Multipart
