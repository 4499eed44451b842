import HttpForms.Multipart.Scanner.Content
import HttpForms.Proofs.Body.Parsing

/-!
# Searching input that is not complete

A search sees what has arrived, and what it says has to hold of all that will ever have arrived. A
needle that it passes over begins nowhere in the whole, and a delimiter that it rejects is a
look-alike in the whole as well.

Results:

1. `find_passes` — what a search passes over begins no needle, whatever is still to come;
2. `Clear.find`, `Clear.reject` — a search and a rejection keep what the buffer remembers true.
-/

namespace HttpForms.Multipart

open Bytes (OccursAt)
open Marker (classify)

theorem occursAt_of_split {needle before after : Bytes} :
    OccursAt needle (before ++ (needle ++ after)) before.length := by
  simp [OccursAt]

theorem occursAt_append {needle hay : Bytes} {place : Nat} (occurs : OccursAt needle hay place)
    (rest : Bytes) : OccursAt needle (hay ++ rest) place := by
  obtain ⟨inside, here⟩ := occurs
  refine ⟨by rw [List.length_append]; omega, ?_⟩
  rw [List.drop_append_of_le_length inside]
  exact here.trans (List.prefix_append _ _)

/-- A needle that lies inside of the front occurs in the front. -/
theorem occursAt_front {needle hay rest : Bytes} {place : Nat}
    (within : place + needle.length ≤ hay.length) (occurs : OccursAt needle (hay ++ rest) place) :
    OccursAt needle hay place := by
  have inside : place ≤ hay.length := Nat.le_of_add_right_le within
  refine ⟨inside, ?_⟩
  have here := occurs.2
  rw [List.drop_append_of_le_length inside] at here
  exact List.prefix_of_prefix_length_le here (List.prefix_append _ _)
    (by rw [List.length_drop]; omega)

theorem occursAt_of_drop {needle hay rest : Bytes} {place n : Nat} (inside : n ≤ hay.length)
    (occurs : OccursAt needle (hay.drop n ++ rest) place) :
    OccursAt needle (hay ++ rest) (n + place) := by
  rw [← List.drop_append_of_le_length inside] at occurs
  obtain ⟨le, here⟩ := occurs
  rw [List.length_drop, List.length_append] at le
  exact ⟨by rw [List.length_append]; omega, by rwa [List.drop_drop] at here⟩

theorem exists_split_of_prefix {needle hay : Bytes} {place : Nat} (inside : place ≤ hay.length)
    (here : needle <+: hay.drop place) :
    ∃ after, hay = hay.take place ++ (needle ++ after) ∧ (hay.take place).length = place := by
  obtain ⟨after, split⟩ := here
  refine ⟨after, ?_, by simp [inside]⟩
  rw [split, List.take_append_drop]

namespace SearchBuffer

variable {s s' : SearchBuffer} {b : Boundary} {needle rest before after chunk : Bytes}
  {search : Search} {place n : Nat}

/-- Inside of what has arrived, a search passes over no needle. -/
theorem find_first (result : s.find needle = (search, s')) (ge : s.scanned ≤ place)
    (lt : place < search.reached) (within : place + needle.length ≤ s.bytes.length) :
    ¬ OccursAt needle s.bytes place := by
  intro here
  have later : OccursAt needle (s.bytes.drop s.scanned) (place - s.scanned) := by
    refine ⟨by rw [List.length_drop]; omega, ?_⟩
    rw [List.drop_drop, Nat.add_sub_cancel' ge]
    exact here.2
  unfold find at result
  split at result
  · rename_i place' hit
    simp only [Prod.mk.injEq] at result
    obtain ⟨rfl, -⟩ := result
    rw [Bytes.findFrom_eq_map, Option.map_eq_some_iff] at hit
    obtain ⟨gap, first, rfl⟩ := hit
    simp only [Search.reached] at lt
    exact (Bytes.find?_eq_some_iff.1 first).2 _ (by omega) later
  · rename_i hit
    rw [Bytes.findFrom_eq_map, Option.map_eq_none_iff] at hit
    exact Bytes.find?_eq_none_iff.1 hit _ later

/-- How far a search gets: a needle that begins before lies inside of what has arrived. -/
theorem find_within (result : s.find needle = (search, s')) (solid : needle ≠ [])
    (ge : s.scanned ≤ place) (lt : place < search.reached) :
    place + needle.length ≤ s.bytes.length := by
  have positive := List.length_pos_iff.2 solid
  cases search with
  | found place' =>
    have le := find_found_le result solid
    simp only [Search.reached] at lt
    omega
  | absent safe =>
    obtain ⟨-, rfl⟩ := find_absent result
    simp only [Search.reached] at lt
    omega

/-- What a search passes over begins no needle, whatever is still to come. -/
theorem find_passes (result : s.find needle = (search, s')) (solid : needle ≠ [])
    (ge : s.scanned ≤ before.length) (lt : before.length < search.reached) :
    s.bytes ++ rest ≠ before ++ (needle ++ after) := by
  intro split
  -- The needle lies inside of what has arrived, where the search has looked for it.
  have within := find_within result solid ge lt
  have occurs : OccursAt needle (s.bytes ++ rest) before.length := split ▸ occursAt_of_split
  exact find_first result ge lt within (occursAt_front within occurs)

/-- More octets than there are cannot leave, and no more are forgotten. -/
theorem discard_min (within : s.scanned ≤ s.bytes.length) (n : Nat) :
    s.discard (min n s.bytes.length) = s.discard n := by
  simp only [discard, SearchBuffer.mk.injEq]
  rcases Nat.le_total n s.bytes.length with le | ge
  · rw [Nat.min_eq_left le]
    exact ⟨rfl, rfl⟩
  · rw [Nat.min_eq_right ge, List.drop_length, List.drop_eq_nil_of_le ge]
    exact ⟨rfl, by omega⟩

/-! ## Delimiters -/

/-- Nothing that the buffer has passed over begins a delimiter that stands. -/
structure Clear (s : SearchBuffer) (b : Boundary) (rest : Bytes) : Prop where
  none : ∀ place < s.scanned, ¬ Stands b (s.bytes ++ rest) place
  within : s.scanned = 0 ∨ s.scanned + b.delimiter.length ≤ s.bytes.length + 1

theorem Clear.restart (s : SearchBuffer) (b : Boundary) (rest : Bytes) : s.restart.Clear b rest where
  none _ lt := absurd lt (Nat.not_lt_zero _)
  within := .inl rfl

theorem Clear.extend (clear : s.Clear b (chunk ++ rest)) : (s.extend chunk).Clear b rest where
  none place lt := by
    rw [SearchBuffer.extend, List.append_assoc]
    exact clear.none place lt
  within := by
    have := clear.within
    simp only [SearchBuffer.extend, List.length_append]
    omega

theorem Clear.find (clear : s.Clear b rest) (result : s.find b.delimiter = (search, s')) :
    s'.Clear b rest := by
  obtain ⟨rfl, -⟩ := find_eq result
  refine ⟨fun place lt => ?_, ?_⟩
  · rintro ⟨before, after, rfl, split, decided⟩
    rcases Nat.lt_or_ge before.length s.scanned with earlier | ge
    · exact clear.none _ earlier ⟨before, after, rfl, split, decided⟩
    · exact find_passes result Boundary.delimiter_ne_nil ge lt split
  · have := clear.within
    cases search with
    | found place =>
      have le := find_found_le result Boundary.delimiter_ne_nil
      simp only [Search.reached]
      omega
    | absent safe =>
      obtain ⟨-, rfl⟩ := find_absent result
      simp only [Search.reached]
      omega

/-- What is found is a delimiter of the whole, and what follows it begins with what has arrived. -/
theorem split_of_found (result : s.find b.delimiter = (.found place, s')) (rest : Bytes) :
    (s.bytes.take place).length = place ∧
      s.bytes ++ rest = s.bytes.take place ++
        (b.delimiter ++ (s.bytes.drop (place + b.delimiter.length) ++ rest)) := by
  have le := find_found_le result Boundary.delimiter_ne_nil
  obtain ⟨-, -, here⟩ := find_found result
  obtain ⟨after, split, length⟩ := exists_split_of_prefix (by omega) here
  refine ⟨length, ?_⟩
  have behind : s.bytes.drop (place + b.delimiter.length) = after := by
    conv => lhs; rw [split]
    rw [← List.append_assoc, List.drop_left' (by simp [length])]
  rw [behind]
  conv => lhs; rw [split]
  simp only [List.append_assoc]

/-- A delimiter that turns out to be a look-alike is passed over. -/
theorem Clear.reject (clear : s.Clear b rest) (result : s.find b.delimiter = (.found place, s'))
    (absent : classify (s.bytes.drop (place + b.delimiter.length)) = .absent) :
    (s'.reject place).Clear b rest := by
  have clear' := clear.find result
  obtain ⟨rfl, -, -⟩ := find_found result
  obtain ⟨length, split⟩ := split_of_found result rest
  refine ⟨fun earlier lt => ?_, ?_⟩
  · simp only [SearchBuffer.reject] at lt ⊢
    rcases Nat.lt_or_ge earlier place with before | ge
    · exact clear'.none _ before
    · obtain rfl : earlier = place := by omega
      -- What has arrived behind it refutes the delimiter, so no later octets can confirm it.
      rintro ⟨front, after, same, split', decided⟩
      rw [split] at split'
      obtain ⟨-, behind⟩ := List.append_inj split' (length.trans same.symm)
      rw [← List.append_cancel_left behind] at decided
      exact decided (classify_absent_append absent rest)
  · have le := find_found_le result Boundary.delimiter_ne_nil
    simp only [SearchBuffer.reject]
    omega

theorem Clear.discard (clear : s.Clear b rest) (le : n ≤ s.scanned) (inside : n ≤ s.bytes.length) :
    (s.discard n).Clear b rest where
  none place lt := by
    intro stands
    simp only [SearchBuffer.discard] at lt stands
    rw [← List.drop_append_of_le_length inside] at stands
    exact clear.none _ (by omega) stands.of_drop
  within := by
    have := clear.within
    simp only [SearchBuffer.discard, List.length_drop]
    omega

end SearchBuffer

end HttpForms.Multipart
