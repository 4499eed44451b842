import HttpForms.Proofs.Scanner.Search

/-!
# Searches that are resumed

A buffer searches from where it last stopped, and what it remembers is moved about by all that happens
to it: octets leave at the front, others come in at the back, a place is rejected. Here a history keeps
apart from the buffer all the input there ever was, how much of it has left, and which places have been
rejected. Searched through from its front, the input that is left shows what a search has to find.

Results:

1. `keeps_perform` — one move keeps what the buffer remembers true of its history;
2. `keeps_after` — so does any sequence of moves;
3. `find_resumed` — a resumed search finds what a search from the front would find.
-/

namespace HttpForms.Multipart.SearchBuffer

open Bytes (OccursAt)

/-! ## Histories -/

/-- Something that is done with a buffer that is searched for one needle. -/
inductive Move
  | extend (chunk : Bytes)
  | find
  /-- Passes over the place that was just found. -/
  | reject (place : Nat)
  | split (n : Nat)
  | discard (n : Nat)
  | deliver (available room : Nat)
  deriving DecidableEq, Repr

/-- A buffer and what has happened to it. -/
structure History where
  buffer : SearchBuffer
  /-- All octets that were ever in the buffer. -/
  input : Bytes
  /-- How many of them have left. -/
  gone : Nat
  /-- The places of the input that were rejected. -/
  rejected : List Nat
  /-- The place in the buffer that was just found. -/
  found : Option Nat
  deriving DecidableEq, Repr

namespace History

/-- A buffer that has not been searched. -/
def start (bytes : Bytes) : History :=
  ⟨⟨bytes, 0⟩, bytes, 0, [], none⟩

/-- The history with so many octets more that have left. -/
def leave (h : History) (buffer : SearchBuffer) (n : Nat) : History :=
  { h with buffer := buffer, gone := h.gone + n, found := none }

/-- One move. -/
def perform (needle : Bytes) (h : History) : Move → History
  | .extend chunk => { h with buffer := h.buffer.extend chunk, input := h.input ++ chunk }
  | .find =>
    match h.buffer.find needle with
    | (.found place, buffer) => { h with buffer := buffer, found := some place }
    | (.absent _, buffer) => { h with buffer := buffer, found := none }
  | .reject place =>
    { h with
      buffer := h.buffer.reject place
      rejected := (h.gone + place) :: h.rejected
      found := none }
  | .split n => h.leave (h.buffer.split n).2 n
  | .discard n => h.leave (h.buffer.discard n) n
  | .deliver available room =>
    h.leave (h.buffer.deliver available room).2 (h.buffer.deliver available room).1.length

/-- A move takes off no more octets than there are, and rejects only the place that was just found. -/
def Allows (h : History) : Move → Prop
  | .split n | .discard n => n ≤ h.buffer.bytes.length
  | .reject place => h.found = some place
  | .extend _ | .find | .deliver _ _ => True

/-- The history behind a sequence of moves. -/
def after (needle : Bytes) (h : History) : List Move → History
  | [] => h
  | move :: later => (h.perform needle move).after needle later

/-- Each of the moves is allowed when its turn has come. -/
def AllowsAll (needle : Bytes) (h : History) : List Move → Prop
  | [] => True
  | move :: later => h.Allows move ∧ (h.perform needle move).AllowsAll needle later

/-- The needle occurs at a place of the input that is left, and the place has not been rejected. -/
def Open (needle : Bytes) (h : History) (place : Nat) : Prop :=
  OccursAt needle (h.input.drop h.gone) place ∧ h.gone + place ∉ h.rejected

/-- What the buffer remembers is true of its history: no place that was rejected is looked at again,
and no other place that has been passed over begins the needle, whatever is still to come. -/
structure Keeps (needle : Bytes) (h : History) : Prop where
  gone : h.gone ≤ h.input.length
  bytes : h.buffer.bytes = h.input.drop h.gone
  within : h.buffer.scanned ≤ h.buffer.bytes.length
  passed : ∀ rest place, place < h.buffer.scanned →
    OccursAt needle (h.buffer.bytes ++ rest) place → h.gone + place ∈ h.rejected
  behind : ∀ place ∈ h.rejected, place < h.gone + h.buffer.scanned
  found : ∀ place, h.found = some place →
    place = h.buffer.scanned ∧ OccursAt needle h.buffer.bytes place

end History

/-! ## One move -/

namespace History

variable {needle bytes : Bytes} {h : History} {move : Move} {moves : List Move}

theorem keeps_start (needle bytes : Bytes) : (start bytes).Keeps needle where
  gone := Nat.zero_le _
  bytes := rfl
  within := Nat.zero_le _
  passed _ _ lt := absurd lt (Nat.not_lt_zero _)
  behind _ mem := absurd mem List.not_mem_nil
  found _ none := nomatch none

/-- A search passes over no needle that is complete now or later, unless its place was rejected. -/
theorem Keeps.passed_find (keeps : h.Keeps needle) (solid : needle ≠ []) {search : Search}
    {buffer : SearchBuffer} (result : h.buffer.find needle = (search, buffer)) (rest : Bytes)
    {place : Nat} (lt : place < search.reached)
    (occurs : OccursAt needle (h.buffer.bytes ++ rest) place) : h.gone + place ∈ h.rejected := by
  rcases Nat.lt_or_ge place h.buffer.scanned with earlier | ge
  · exact keeps.passed rest place earlier occurs
  · have within := find_within result solid ge lt
    exact absurd (occursAt_front within occurs) (find_first result ge lt within)

theorem keeps_find (keeps : h.Keeps needle) (solid : needle ≠ []) :
    (h.perform needle .find).Keeps needle := by
  have positive := List.length_pos_iff.2 solid
  rcases result : h.buffer.find needle with ⟨search, buffer⟩
  have passed : ∀ rest place, place < search.reached →
      OccursAt needle (h.buffer.bytes ++ rest) place → h.gone + place ∈ h.rejected :=
    fun rest _ lt occurs => keeps.passed_find solid result rest lt occurs
  have forward := (find_eq result).2
  obtain ⟨rfl, -⟩ := find_eq result
  cases search with
  | found place =>
    have inside := find_found_le result solid
    have occurs := (find_found result).2.2
    simp only [perform, result]
    exact {
      gone := keeps.gone
      bytes := keeps.bytes
      within := Nat.le_trans (Nat.le_add_right _ _) inside
      passed := passed
      behind := fun p mem => Nat.lt_of_lt_of_le (keeps.behind p mem) (Nat.add_le_add_left forward _)
      found := fun p same => by
        obtain rfl := Option.some.inj same
        exact ⟨rfl, by show place ≤ h.buffer.bytes.length; omega, occurs⟩ }
  | absent safe =>
    have reached := (find_absent result).2
    have within := keeps.within
    simp only [perform, result]
    exact {
      gone := keeps.gone
      bytes := keeps.bytes
      within := by simp only [Search.reached]; omega
      passed := passed
      behind := fun p mem => Nat.lt_of_lt_of_le (keeps.behind p mem) (Nat.add_le_add_left forward _)
      found := nofun }

/-- Octets that leave take what is remembered of them along. -/
theorem keeps_leave (keeps : h.Keeps needle) {n : Nat} (inside : n ≤ h.buffer.bytes.length) :
    (h.leave (h.buffer.discard n) n).Keeps needle where
  gone := by
    have := keeps.gone
    rw [keeps.bytes, List.length_drop] at inside
    simp only [leave]
    omega
  bytes := by
    simp only [leave, discard]
    rw [keeps.bytes, List.drop_drop]
  within := by
    have := keeps.within
    simp only [leave, discard, List.length_drop]
    omega
  passed rest place lt occurs := by
    simp only [leave, discard] at lt occurs ⊢
    rw [Nat.add_assoc]
    exact keeps.passed rest (n + place) (by omega) (occursAt_of_drop inside occurs)
  behind place mem := by
    have := keeps.behind place mem
    simp only [leave, discard]
    omega
  found := nofun

/-- One allowed move keeps what the buffer remembers true. -/
theorem keeps_perform (keeps : h.Keeps needle) (solid : needle ≠ []) (allows : h.Allows move) :
    (h.perform needle move).Keeps needle := by
  cases move with
  | extend chunk =>
    exact {
      gone := by
        have := keeps.gone
        simp only [perform, List.length_append]
        omega
      bytes := by
        simp only [perform, SearchBuffer.extend]
        rw [List.drop_append_of_le_length keeps.gone, keeps.bytes]
      within := by
        have := keeps.within
        simp only [perform, SearchBuffer.extend, List.length_append]
        omega
      passed := fun rest place lt occurs => by
        simp only [perform, SearchBuffer.extend, List.append_assoc] at lt occurs ⊢
        exact keeps.passed (chunk ++ rest) place lt occurs
      behind := keeps.behind
      found := fun place same => by
        obtain ⟨here, occurs⟩ := keeps.found place same
        exact ⟨here, occursAt_append occurs chunk⟩ }
  | find => exact keeps_find keeps solid
  | reject place =>
    obtain ⟨rfl, occurs⟩ := keeps.found place allows
    have inside := occurs.length_le
    have positive := List.length_pos_iff.2 solid
    exact {
      gone := keeps.gone
      bytes := keeps.bytes
      within := by simp only [perform, SearchBuffer.reject]; omega
      passed := fun rest p lt here => by
        simp only [perform, SearchBuffer.reject] at lt here ⊢
        rcases Nat.lt_or_ge p h.buffer.scanned with earlier | ge
        · exact List.mem_cons_of_mem _ (keeps.passed rest p earlier here)
        · obtain rfl : p = h.buffer.scanned := by omega
          exact List.mem_cons_self
      behind := fun p mem => by
        simp only [perform, SearchBuffer.reject] at mem ⊢
        rcases List.mem_cons.1 mem with rfl | before
        · omega
        · have := keeps.behind p before
          omega
      found := fun _ same => by cases same }
  | split n => exact keeps_leave keeps allows
  | discard n => exact keeps_leave keeps allows
  | deliver available room =>
    have taken : (h.buffer.deliver available room).1.length =
        min (min available room) h.buffer.bytes.length := List.length_take
    have rest : (h.buffer.deliver available room).2 =
        h.buffer.discard (min (min available room) h.buffer.bytes.length) :=
      (discard_min keeps.within _).symm
    rw [perform, rest, taken]
    exact keeps_leave keeps (Nat.min_le_right _ _)

/-! ## Any number of moves -/

theorem keeps_after (keeps : h.Keeps needle) (solid : needle ≠ [])
    (allows : h.AllowsAll needle moves) : (h.after needle moves).Keeps needle := by
  induction moves generalizing h with
  | nil => exact keeps
  | cons move later ih => exact ih (keeps_perform keeps solid allows.1) allows.2

/-- Behind any allowed moves a search of the buffer, which starts where the last one stopped, finds
the first place where the needle occurs in the input that is left and which has not been rejected. If
there is no such place, none will ever be among the octets that the search calls safe, and they are
all but the end of the buffer that could still begin the needle. -/
theorem find_resumed (solid : needle ≠ []) (bytes : Bytes) (moves : List Move)
    (allows : (start bytes).AllowsAll needle moves) :
    let h := (start bytes).after needle moves
    h.buffer.bytes = h.input.drop h.gone ∧
    match (h.buffer.find needle).1 with
    | .found place => h.Open needle place ∧ ∀ earlier < place, ¬ h.Open needle earlier
    | .absent safe => (∀ place, ¬ h.Open needle place) ∧
      h.buffer.bytes.length - (needle.length - 1) ≤ safe ∧ safe ≤ h.buffer.bytes.length ∧
      ∀ rest place, OccursAt needle (h.buffer.bytes ++ rest) place →
        h.gone + place ∉ h.rejected → safe ≤ place := by
  intro h
  have keeps : h.Keeps needle := keeps_after (keeps_start needle bytes) solid allows
  refine ⟨keeps.bytes, ?_⟩
  rcases result : h.buffer.find needle with ⟨search, buffer⟩
  have passed : ∀ rest place, OccursAt needle (h.buffer.bytes ++ rest) place →
      h.gone + place ∉ h.rejected → search.reached ≤ place := by
    intro rest place occurs fresh
    by_contra before
    exact fresh (keeps.passed_find solid result rest (Nat.lt_of_not_le before) occurs)
  -- An open place is one that no search has passed over, so this search gets no further than it.
  have least : ∀ place, h.Open needle place → search.reached ≤ place := by
    rintro place ⟨occurs, fresh⟩
    rw [← keeps.bytes] at occurs
    exact passed [] place (by rwa [List.append_nil]) fresh
  cases search with
  | found place =>
    obtain ⟨-, ge, here⟩ := find_found result
    have inside := find_found_le result solid
    refine ⟨⟨⟨?_, ?_⟩, fun mem => ?_⟩, fun earlier lt isOpen => ?_⟩
    · rw [← keeps.bytes]
      omega
    · rw [← keeps.bytes]
      exact here
    · have := keeps.behind _ mem
      omega
    · exact absurd (least earlier isOpen) (Nat.not_le_of_lt lt)
  | absent safe =>
    have reached := (find_absent result).2
    have within := keeps.within
    have positive := List.length_pos_iff.2 solid
    refine ⟨fun place isOpen => ?_, by omega, by omega, passed⟩
    have far : safe ≤ place := least place isOpen
    have inside := isOpen.1.length_le
    rw [← keeps.bytes] at inside
    omega

/-- The needle overlaps itself, one of its places is rejected and leaves, and the end of the input is
cut through the needle. -/
theorem find_resumed_sample :
    [1, 1] ≠ ([] : Bytes) ∧
    (start [1, 1, 0, 1]).AllowsAll [1, 1] [.find, .reject 0, .find, .discard 2, .extend [1, 2]] ∧
    let h := (start [1, 1, 0, 1]).after [1, 1] [.find, .reject 0, .find, .discard 2, .extend [1, 2]]
    (h.buffer.find [1, 1]).1 = .found 1 ∧ h.Open [1, 1] 1 ∧
      ∀ earlier < 1, ¬ h.Open [1, 1] earlier := by
  have solid : [1, 1] ≠ ([] : Bytes) := by decide
  have allows : (start [1, 1, 0, 1]).AllowsAll [1, 1]
      [.find, .reject 0, .find, .discard 2, .extend [1, 2]] := by
    refine ⟨trivial, ?_, trivial, ?_, trivial, trivial⟩
    · rfl
    · show 2 ≤ 4
      decide
  exact ⟨solid, allows, by decide, (find_resumed solid [1, 1, 0, 1] _ allows).2⟩

end History

end HttpForms.Multipart.SearchBuffer
