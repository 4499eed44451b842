import HttpForms.Bytes

/-!
# The search buffer

Input that has arrived and is not yet given away. Octets come in at the back and leave at the front.
A search that fails remembers how far it got, so that after more input only the end of the old input
is looked at again; a place that looked like the needle and was none is passed over in the same way.

Results:

1. `find_found` — what a search finds is an occurrence at or behind the remembered place;
2. `find_eq` — searching changes nothing but the remembered place, and that only forward.
-/

namespace HttpForms.Multipart

/-- Octets waiting at the front of the input, and how far they have been searched. -/
structure SearchBuffer where
  bytes : Bytes
  /-- No occurrence begins before this place. -/
  scanned : Nat
  deriving DecidableEq, Repr

/-- The outcome of a search. -/
inductive Search
  /-- The needle begins at this place. -/
  | found (place : Nat)
  /-- There is no needle, and none can begin among the first `safe` octets. -/
  | absent (safe : Nat)
  deriving DecidableEq, Repr

/-- How many octets at the front begin no needle. -/
def Search.reached : Search → Nat
  | .found place => place
  | .absent safe => safe

namespace SearchBuffer

/-- No input. -/
def empty : SearchBuffer := ⟨[], 0⟩

/-- Adds input. -/
def extend (b : SearchBuffer) (chunk : Bytes) : SearchBuffer :=
  { b with bytes := b.bytes ++ chunk }

/-- Looks for the needle from the remembered place on. If there is none, all but the last octets,
where one could still begin, are safe. -/
def find (b : SearchBuffer) (needle : Bytes) : Search × SearchBuffer :=
  match Bytes.findFrom needle b.scanned (b.bytes.drop b.scanned) with
  | some place => (.found place, { b with scanned := place })
  | none =>
    let safe := max b.scanned (b.bytes.length - (needle.length - 1))
    (.absent safe, { b with scanned := safe })

/-- Passes over a place that was found and is not what was looked for. -/
def reject (b : SearchBuffer) (place : Nat) : SearchBuffer :=
  { b with scanned := max b.scanned (place + 1) }

/-- Forgets how far the search got, for another needle. -/
def restart (b : SearchBuffer) : SearchBuffer :=
  { b with scanned := 0 }

/-- Drops octets at the front. -/
def discard (b : SearchBuffer) (n : Nat) : SearchBuffer :=
  ⟨b.bytes.drop n, b.scanned - n⟩

/-- Takes octets off the front. -/
def split (b : SearchBuffer) (n : Nat) : Bytes × SearchBuffer :=
  (b.bytes.take n, b.discard n)

/-- Takes octets off the front, at most those available and at most what there is room for. -/
def deliver (b : SearchBuffer) (available room : Nat) : Bytes × SearchBuffer :=
  b.split (min available room)

section SearchBufferLemmas

variable {b b' : SearchBuffer} {needle : Bytes} {search : Search} {place safe : Nat}

theorem find_found (found : b.find needle = (.found place, b')) :
    b' = ⟨b.bytes, place⟩ ∧ b.scanned ≤ place ∧ needle <+: b.bytes.drop place := by
  unfold find at found
  split at found
  · rename_i hit
    simp only [Prod.mk.injEq, Search.found.injEq] at found
    obtain ⟨rfl, rfl⟩ := found
    rw [Bytes.findFrom_eq_map, Option.map_eq_some_iff] at hit
    obtain ⟨gap, occurs, rfl⟩ := hit
    have here := (Bytes.find?_eq_some_iff.1 occurs).1.2
    rw [List.drop_drop] at here
    exact ⟨rfl, Nat.le_add_right _ _, here⟩
  · simp at found

theorem find_absent (absent : b.find needle = (.absent safe, b')) :
    b' = ⟨b.bytes, safe⟩ ∧ safe = max b.scanned (b.bytes.length - (needle.length - 1)) := by
  unfold find at absent
  split at absent
  · simp at absent
  · simp only [Prod.mk.injEq, Search.absent.injEq] at absent
    obtain ⟨rfl, rfl⟩ := absent
    exact ⟨rfl, rfl⟩

/-- A needle that is found lies inside the buffer. -/
theorem find_found_le (found : b.find needle = (.found place, b')) (solid : needle ≠ []) :
    place + needle.length ≤ b.bytes.length := by
  have length := (find_found found).2.2.length_le
  rw [List.length_drop] at length
  have := List.length_pos_iff.2 solid
  omega

/-- A search changes the remembered place alone, and only forward. -/
theorem find_eq (result : b.find needle = (search, b')) :
    b' = ⟨b.bytes, search.reached⟩ ∧ b.scanned ≤ search.reached := by
  cases search with
  | found place => exact ⟨(find_found result).1, (find_found result).2.1⟩
  | absent safe =>
    obtain ⟨same, safe_eq⟩ := find_absent result
    exact ⟨same, by simp only [Search.reached]; omega⟩

/-- In an empty buffer a search does not move. -/
theorem find_nil (result : b.find needle = (search, b')) (solid : needle ≠ [])
    (none : b.bytes = []) : search.reached = b.scanned := by
  cases search with
  | found place =>
    have le := find_found_le result solid
    have := List.length_pos_iff.2 solid
    rw [none, List.length_nil] at le
    omega
  | absent safe =>
    have := (find_absent result).2
    simpa [none, Search.reached] using this

theorem length_discard (n : Nat) : (b.discard n).bytes.length = b.bytes.length - n := by
  simp [discard]

theorem length_deliver (available room : Nat) :
    (b.deliver available room).1.length + (b.deliver available room).2.bytes.length =
      b.bytes.length := by
  simp only [deliver, split, List.length_take, length_discard]
  omega

end SearchBufferLemmas

example : (SearchBuffer.mk [1, 2, 3] 0).find [3, 4] = (.absent 2, ⟨[1, 2, 3], 2⟩) := by decide

end SearchBuffer

end HttpForms.Multipart
