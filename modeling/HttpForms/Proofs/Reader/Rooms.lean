import HttpForms.Proofs.Reader.Invariants
import HttpForms.Proofs.Reader.Steps
import HttpForms.Proofs.Scanner.Portions

/-!
# The sizes of buffers

Whoever reads a section to its end does so with buffers of his own choice, and may choose another size
each time. As long as none is empty, the sizes change neither what is read nor in what state the
reader is left, nor at which points the source is asked.

Results:

1. `poll_extends` — a larger buffer gets more of the same;
2. `drainBy_eq_drain` — a section that is read with buffers of any sizes is read as one that is read
   with buffers of a fixed size.
-/

namespace HttpForms.Multipart

/-- The size of a buffer that is not empty. -/
structure Room where
  size : Nat
  pos : 0 < size

/-- The sizes of the buffers that a stream is polled with, one after the other. -/
abbrev Rooms := Nat → Room

namespace Rooms

/-- The sizes behind the first one. -/
def tail (rooms : Rooms) : Rooms := fun n => rooms (n + 1)

/-- A size before all others. -/
def cons (room : Room) (rooms : Rooms) : Rooms
  | 0 => room
  | n + 1 => rooms n

end Rooms

namespace Reader

variable {σ : Type} [ByteSource σ]

/-- Reads what is left of the section at hand by polling with buffers of these sizes, up to a poll
that gives nothing or an error. -/
def drainBy (mode : Mode) (rooms : Rooms) (r : Reader σ) : Content × Reader σ :=
  match _polled : r.poll mode (rooms 0).size with
  | (.pending, t) => drainBy mode rooms.tail t
  | (.ready (.ok []), t) => (⟨[], none⟩, t)
  | (.ready (.ok (b :: bytes)), t) =>
    let (rest, u) := drainBy mode rooms.tail t
    (⟨b :: bytes ++ rest.bytes, rest.failure⟩, u)
  | (.ready (.error failure), t) => (⟨[], some failure⟩, t)
termination_by r.remaining
decreasing_by
  all_goals
    have polls := poll_remaining mode r (rooms 0).size
    rw [_polled] at polls
  · exact polls
  · simp only [Polls, taken, List.length_cons] at polls
    omega

section PollLemmas

variable {mode : Mode} {r t u : Reader σ} {rooms : Rooms} {room more : Nat} {bytes : Bytes}
  {failure : Failure} {result : Except Failure Bytes}

/-! ## Polls of different sizes -/

/-- The scanner of a reader has not left its buffer in its search. -/
def Searched (r : Reader σ) : Prop :=
  r.scanner.Searched

theorem kept_searched : Kept (Searched (σ := σ)) where
  step {r _ _} _ step := by
    have searched := Scanner.searched_next r.scanner
    rwa [step] at searched
  content {_ room _ _} holds read := by
    have searched := Scanner.Searched.readBody holds room
    rwa [read] at searched
  data {r bytes source} holds _ _ _ := by
    show (if bytes.isEmpty then r.scanner.finish else r.scanner.feed bytes).Searched
    split
    · exact holds
    · exact Scanner.Searched.feed holds bytes
  failed _ _ _ _ := nofun
  again holds _ _ _ _ := holds

/-- What polling with more room may give, where polling with less gives this: the same, or more that
could have been polled behind it. -/
def Extends (mode : Mode) (room more : Nat) (less greater : Polled (Except Failure Bytes) × Reader σ) :
    Prop :=
  greater = less ∨ ∃ bytes rest t u, less = (.ready (.ok bytes), t) ∧
    greater = (.ready (.ok (bytes ++ rest)), u) ∧ bytes ≠ [] ∧ rest ≠ [] ∧ room < more ∧
    t.poll mode (more - room) = (.ready (.ok rest), u)

/-- More room gives more of the same, and asks the source no other questions. -/
theorem poll_extends (mode : Mode) (searched : r.Searched) (space : 0 < room) (le : room ≤ more) :
    Extends mode room more (r.poll mode room) (r.poll mode more) := by
  have wider : 0 < more := Nat.lt_of_lt_of_le space le
  fun_induction poll mode r room with
  | case1 r =>
    rename_i none
    exact absurd none (Nat.ne_of_gt space)
  | case2 r _ bytes s read =>
    rcases r.scanner.readBody_split le with same | ⟨bytes', rest, t, u, read', greater, lt, behind⟩
    · refine .inl ?_
      rw [poll_step mode r wider, same, read]
    · have onward := Scanner.Searched.readBody searched room
      rw [read] at read' onward
      cases read'
      have positive := Nat.sub_pos_of_lt lt
      refine .inr ⟨bytes, rest, { r with scanner := s }, { r with scanner := u }, rfl, ?_,
        Scanner.readBody_ne_nil searched space read, Scanner.readBody_ne_nil onward positive behind,
        lt, ?_⟩
      · rw [poll_step mode r wider, greater]
      · rw [poll_step mode _ positive, behind]
  | case3 r _ s read =>
    refine .inl ?_
    rcases r.scanner.readBody_split le with same | ⟨_, _, _, _, read', -⟩
    · rw [poll_step mode r wider, same, read]
    · rw [read] at read'
      cases read'
  | case4 r _ failure s read =>
    refine .inl ?_
    rcases r.scanner.readBody_split le with same | ⟨_, _, _, _, read', -⟩
    · rw [poll_step mode r wider, same, read]
    · rw [read] at read'
      cases read'
  -- To ask for input changes nothing and does not depend on the room.
  | case5 r _ s read t asked ih =>
    have onward := kept_searched.ask_of_needInput mode searched read
    obtain ⟨rfl, waits⟩ := Scanner.readBody_needInput read
    rw [asked] at onward
    rw [poll_step mode r wider, waits more]
    simp only [asked]
    exact ih onward
  | case6 r _ s read failure t asked =>
    obtain ⟨rfl, waits⟩ := Scanner.readBody_needInput read
    refine .inl ?_
    rw [poll_step mode r wider, waits more]
    simp only [asked]
  | case7 r _ s read t asked =>
    obtain ⟨rfl, waits⟩ := Scanner.readBody_needInput read
    refine .inl ?_
    rw [poll_step mode r wider, waits more]
    simp only [asked]

/-! ## Draining with buffers of any sizes -/

theorem drainBy_pending (polled : r.poll mode (rooms 0).size = (.pending, t)) :
    r.drainBy mode rooms = t.drainBy mode rooms.tail := by
  rw [drainBy]
  split <;> simp_all

theorem drainBy_nil (polled : r.poll mode (rooms 0).size = (.ready (.ok []), t)) :
    r.drainBy mode rooms = (⟨[], none⟩, t) := by
  rw [drainBy]
  split <;> simp_all

theorem drainBy_failed (polled : r.poll mode (rooms 0).size = (.ready (.error failure), t)) :
    r.drainBy mode rooms = (⟨[], some failure⟩, t) := by
  rw [drainBy]
  split <;> simp_all

theorem drainBy_data (polled : r.poll mode (rooms 0).size = (.ready (.ok bytes), t))
    (some_ : bytes ≠ []) :
    r.drainBy mode rooms = (⟨bytes ++ (t.drainBy mode rooms.tail).1.bytes,
      (t.drainBy mode rooms.tail).1.failure⟩, (t.drainBy mode rooms.tail).2) := by
  rw [drainBy]
  split <;> simp_all

theorem remaining_lt_of_taken (polls : Polls r (.ready (.ok bytes), t)) (some_ : bytes ≠ []) :
    t.remaining < r.remaining := by
  have positive := List.length_pos_iff.2 some_
  simp only [Polls, taken] at polls
  omega

/-- Buffers of other sizes make no difference where they make none behind the first poll. -/
theorem drainBy_eq_of_le {rooms' : Rooms} (searched : r.Searched)
    (le : (rooms 0).size ≤ (rooms' 0).size)
    (ih : ∀ t : Reader σ, t.remaining < r.remaining → t.Searched →
      ∀ rooms rooms', t.drainBy mode rooms = t.drainBy mode rooms') :
    r.drainBy mode rooms = r.drainBy mode rooms' := by
  have polls := poll_remaining mode r (rooms 0).size
  have onward := kept_searched.poll mode r (rooms 0).size searched
  rcases poll_extends mode searched (rooms 0).pos le with
    same | ⟨bytes, rest, t, u, polled, polled', some_, more, lt, behind⟩
  · rcases polled : r.poll mode (rooms 0).size with ⟨_ | (failure | bytes), t⟩ <;>
      rw [polled] at same polls onward
    · rw [drainBy_pending polled, drainBy_pending same]
      exact ih t polls onward _ _
    · rw [drainBy_failed polled, drainBy_failed same]
    · by_cases none : bytes = []
      · subst none
        rw [drainBy_nil polled, drainBy_nil same]
      · have less : t.remaining < r.remaining := remaining_lt_of_taken polls none
        rw [drainBy_data polled none, drainBy_data same none, ih t less onward rooms.tail rooms'.tail]
  -- What the greater buffer takes at once, the smaller one takes with the poll behind it.
  · rw [polled] at polls onward
    have less : t.remaining < r.remaining := remaining_lt_of_taken polls some_
    let rooms'' : Rooms :=
      .cons ⟨(rooms' 0).size - (rooms 0).size, Nat.sub_pos_of_lt lt⟩ rooms'.tail
    have cut := ih t less onward rooms.tail rooms''
    have both : bytes ++ rest ≠ [] := fun none => some_ (List.append_eq_nil_iff.1 none).1
    have second : t.drainBy mode rooms'' = _ := drainBy_data behind more
    rw [drainBy_data polled some_, drainBy_data polled' both, cut, second, List.append_assoc]
    rfl

/-- The sizes of the buffers make no difference. -/
theorem drainBy_eq_drainBy (searched : r.Searched) (rooms rooms' : Rooms) :
    r.drainBy mode rooms = r.drainBy mode rooms' := by
  induction left : r.remaining using Nat.strongRecOn generalizing r rooms rooms' with
  | ind n ih =>
    have behind (t : Reader σ) (less : t.remaining < r.remaining) (searched : t.Searched) :
        ∀ rooms rooms', t.drainBy mode rooms = t.drainBy mode rooms' :=
      fun rooms rooms' => ih t.remaining (left ▸ less) searched rooms rooms' rfl
    rcases Nat.le_total (rooms 0).size (rooms' 0).size with le | ge
    · exact drainBy_eq_of_le searched le behind
    · exact (drainBy_eq_of_le searched ge behind).symm

/-- Buffers of the usual size, and what is polled is waited for. -/
theorem drainBy_portion (r : Reader σ) :
    r.drainBy mode (fun _ => ⟨portion, by decide⟩) = r.drain mode := by
  induction left : r.remaining using Nat.strongRecOn generalizing r with
  | ind n ih =>
    have polls := poll_remaining mode r portion
    rcases polled : r.poll mode portion with ⟨_ | (failure | bytes), t⟩ <;> rw [polled] at polls
    · rw [drainBy_pending polled, drain_step, read_step, polled]
      simp only [← drain_step]
      exact ih t.remaining (left ▸ polls) t rfl
    · rw [drainBy_failed polled, drain_step, read_step, polled]
    · cases bytes with
      | nil => rw [drainBy_nil polled, drain_step, read_step, polled]
      | cons b bytes =>
        have some_ : b :: bytes ≠ [] := List.cons_ne_nil b bytes
        have less := remaining_lt_of_taken polls some_
        have onward := ih t.remaining (left ▸ less) t rfl
        rw [drainBy_data polled some_, drain_step, read_step, polled]
        simp only [← onward]
        rfl

/-- A section is read as with buffers of the usual size, whatever sizes the buffers have. -/
theorem drainBy_eq_drain (searched : r.Searched) (rooms : Rooms) :
    r.drainBy mode rooms = r.drain mode := by
  rw [drainBy_eq_drainBy searched rooms fun _ => ⟨portion, by decide⟩, drainBy_portion]

end PollLemmas

end Reader

end HttpForms.Multipart
