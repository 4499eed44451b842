import HttpForms.Multipart.Scanner.Content
import HttpForms.Proofs.Scanner.Search
import HttpForms.Proofs.Text.Places

/-!
# Buffers that guard their ends

A place in a buffer is a number, and nothing about a number says that it lies inside. Here it is
checked at every access: to look at an octet or at a stretch of them, and to take octets off the front,
is refused when that would reach past the end, and then nothing comes of the whole. Looking for a
needle goes from place to place, as it is done in memory.

Results:

1. `Bytes.findAt?_eq` — a search looks at nothing behind the end, and finds what `findFrom` finds;
2. `Marker.classify?_eq` — neither does reading a marker;
3. `SearchBuffer.find?_eq`, `SearchBuffer.deliver?_eq` — so a buffer need not refuse a search, and it
   need not refuse to give octets away while its search has not left it.
-/

namespace HttpForms

/-! ## Octets -/

namespace Bytes

/-- Whether the needle stands at place `i`. Only where its first octet does is a stretch compared. -/
def stands? (needle : Bytes) (first : UInt8) (i : Nat) (hay : Bytes) : Option Bool :=
  hay[i]?.bind fun octet =>
    if octet == first then (hay.slice? i (i + needle.length)).map (· == needle) else some false

/-- Looks for the needle at the places from `i` to `last`, one after the other. -/
def seek? (needle : Bytes) (first : UInt8) (last i : Nat) (hay : Bytes) : Option (Option Nat) :=
  if _more : i ≤ last then
    (stands? needle first i hay).bind fun stands =>
      if stands then some (some i) else seek? needle first last (i + 1) hay
  else some none
termination_by last + 1 - i

/-- The first place of the needle at or behind `start`. -/
def findAt? (needle : Bytes) (start : Nat) (hay : Bytes) : Option (Option Nat) :=
  if needle.isEmpty then some (some (min start hay.length))
  else if hay.length ≤ start || hay.length - start < needle.length then some none
  else
    needle[0]?.bind fun first => seek? needle first (hay.length - needle.length) start hay

section GuardLemmas

variable {needle hay : Bytes} {i start : Nat} {first : UInt8}

/-- Where there is room for the needle, what is looked at lies inside. -/
theorem stands?_eq (head : needle[0]? = some first) (room : i + needle.length ≤ hay.length) :
    stands? needle first i hay = some (needle.isPrefixOf (hay.drop i)) := by
  obtain ⟨more, rfl⟩ : ∃ more, needle = first :: more := by
    cases needle with
    | nil => cases head
    | cons a more =>
      obtain rfl : a = first := by simpa using head
      exact ⟨more, rfl⟩
  have lt : i < hay.length := Nat.lt_of_lt_of_le (Nat.lt_add_of_pos_right (Nat.succ_pos _)) room
  rw [stands?, List.getElem?_eq_getElem lt, Option.bind_some]
  by_cases same : hay[i] = first
  · rw [if_pos (beq_iff_eq.2 same), slice?_eq (Nat.le_add_right _ _) room, Nat.add_sub_cancel_left,
      Option.map_some, Option.some.injEq, Bool.eq_iff_iff, beq_iff_eq, List.isPrefixOf_iff_prefix,
      List.prefix_iff_eq_take, eq_comm]
  · rw [if_neg (by simpa using same), List.drop_eq_getElem_cons lt]
    simp [List.isPrefixOf, Ne.symm same]

theorem seek?_eq {last : Nat} (head : needle[0]? = some first)
    (fits : last + needle.length = hay.length) (i : Nat) :
    seek? needle first last i hay = some (findFrom needle i (hay.drop i)) := by
  have positive : 0 < needle.length := List.length_pos_iff.2 fun none => by simp [none] at head
  fun_induction seek? needle first last i hay with
  | case1 i inside ih =>
    rw [stands?_eq head (by omega), Option.bind_some, ih, List.drop_eq_getElem_cons (by omega), findFrom]
    split <;> rfl
  | case2 i outside =>
    rw [findFrom_of_short]
    rw [List.length_drop]
    omega

/-- A search looks at nothing behind the end, wherever it starts. -/
theorem findAt?_eq (solid : needle ≠ []) (start : Nat) (hay : Bytes) :
    findAt? needle start hay = some (findFrom needle start (hay.drop start)) := by
  obtain ⟨first, more, rfl⟩ := List.exists_cons_of_ne_nil solid
  rw [findAt?, if_neg (by simp)]
  by_cases short : hay.length ≤ start || hay.length - start < (first :: more).length
  · rw [if_pos short, findFrom_of_short]
    simp only [Bool.or_eq_true, decide_eq_true_eq] at short
    rw [List.length_drop]
    have positive : 0 < (first :: more).length := Nat.succ_pos _
    omega
  · rw [if_neg short]
    simp only [Bool.or_eq_true, decide_eq_true_eq] at short
    exact seek?_eq rfl (by omega) start

end GuardLemmas

end Bytes

namespace Multipart

open Bytes (behind?)

/-! ## Markers -/

namespace Marker

/-- Reads the marker at the front of what follows a boundary. -/
def classify? (rest : Bytes) : Option Marker :=
  if rest == [] || rest == [Bytes.hyphen] then some .undecided
  else if closing.isPrefixOf rest then some .closes
  else do
    let padding := (rest.takeWhile isPadding).length
    let after ← rest.behind? padding
    if after == [] || after == [Bytes.cr] then some .undecided
    else if Bytes.crlf.isPrefixOf after then some (.opens (padding + Bytes.crlf.length))
    else some .absent

theorem classify?_eq (rest : Bytes) : classify? rest = some (classify rest) := by
  have whole : rest.takeWhile isPadding ++ rest.dropWhile isPadding = rest :=
    List.takeWhile_append_dropWhile
  have after : rest.behind? (rest.takeWhile isPadding).length = some (rest.dropWhile isPadding) := by
    rw [Bytes.behind?_eq (List.takeWhile_prefix _).length_le]
    conv => lhs; rhs; rhs; rw [← whole]
    rw [List.drop_left]
  unfold classify? classify
  simp only [after, Option.bind_eq_bind, Option.bind_some]
  split
  · rfl
  split
  · rfl
  split
  · rfl
  split <;> rfl

/-- A marker lies inside of what it is read from. -/
theorem length_le_of_line {rest : Bytes} {kind : LineKind} {n : Nat}
    (line : (classify rest).line? = some (kind, n)) : n ≤ rest.length := by
  obtain ⟨marker, after, -, rfl, rfl⟩ := classify_line_iff.1 line
  rw [List.length_append]
  exact Nat.le_add_right _ _

end Marker

/-! ## Buffers -/

namespace SearchBuffer

/-- Looks for the needle from the remembered place on. -/
def find? (b : SearchBuffer) (needle : Bytes) : Option (Search × SearchBuffer) := do
  match ← Bytes.findAt? needle b.scanned b.bytes with
  | some place => some (.found place, { b with scanned := place })
  | none =>
    let safe := max b.scanned (b.bytes.length - (needle.length - 1))
    some (.absent safe, { b with scanned := safe })

/-- Drops octets at the front, which have to be there. -/
def discard? (b : SearchBuffer) (n : Nat) : Option SearchBuffer :=
  if n ≤ b.bytes.length then some (b.discard n) else none

/-- Takes octets off the front, which have to be there. -/
def split? (b : SearchBuffer) (n : Nat) : Option (Bytes × SearchBuffer) := do
  let front ← b.bytes.slice? 0 n
  let rest ← b.discard? n
  some (front, rest)

/-- Copies octets at the front to where there is room for them, and drops them. -/
def deliver? (b : SearchBuffer) (available room : Nat) : Option (Bytes × SearchBuffer) :=
  let n := min (min available room) b.bytes.length
  if n ≤ room then b.split? n else none

section GuardLemmas

variable {b b' : SearchBuffer} {needle : Bytes} {search : Search} {n : Nat}

theorem find?_eq (solid : needle ≠ []) (b : SearchBuffer) : b.find? needle = some (b.find needle) := by
  rw [find?, Bytes.findAt?_eq solid, find]
  cases Bytes.findFrom needle b.scanned (b.bytes.drop b.scanned) <;> rfl

theorem discard?_eq (inside : n ≤ b.bytes.length) : b.discard? n = some (b.discard n) :=
  if_pos inside

theorem split?_eq (inside : n ≤ b.bytes.length) : b.split? n = some (b.split n) := by
  rw [split?, Bytes.slice?_eq (Nat.zero_le _) inside, discard?_eq inside]
  rfl

/-- No more is copied than there is, so it does not matter how much is available. -/
theorem deliver?_eq (within : b.scanned ≤ b.bytes.length) (available room : Nat) :
    b.deliver? available room = some (b.deliver available room) := by
  rw [deliver?, if_pos (by omega), split?_eq (Nat.min_le_right _ _), deliver, split, split,
    discard_min within, ← List.take_eq_take_min]

end GuardLemmas

example : (SearchBuffer.mk [1, 2] 0).discard? 3 = none := rfl

end SearchBuffer

end Multipart

end HttpForms
