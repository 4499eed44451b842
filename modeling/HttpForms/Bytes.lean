/-!
# Octet sequences

Bodies are sequences of octets, and everything that looks for structure in them is a search. This
module holds the type and the leftmost search every other search is made of.

Results:

1. `find?_eq_some_iff` — what is found is an occurrence, and none begins before it;
2. `find?_eq_none_iff` — nothing is found exactly when there is no occurrence at all.
-/

namespace HttpForms

/-- A body, or a piece of one. -/
abbrev Bytes := List UInt8

namespace Bytes

/-- Carriage return. -/
def cr : UInt8 := 0x0D

/-- Line feed. -/
def lf : UInt8 := 0x0A

/-- The hyphen, which begins every boundary line. -/
def hyphen : UInt8 := 0x2D

/-- The end of a line. -/
def crlf : Bytes := [cr, lf]

/-- Blanks of the ASCII range: space, tab, line feed, form feed and carriage return. -/
def isAsciiBlank (b : UInt8) : Bool :=
  b == 0x20 || b == 0x09 || b == 0x0A || b == 0x0C || b == 0x0D

/-! ## Search -/

/-- The first place of `needle` in `hay`, when the front of `hay` is place `start`. -/
def findFrom (needle : Bytes) (start : Nat) : Bytes → Option Nat
  | [] => if needle.isEmpty then some start else none
  | b :: rest =>
    if needle.isPrefixOf (b :: rest) then some start else findFrom needle (start + 1) rest

/-- The first place of `needle` in `hay`. -/
def find? (needle hay : Bytes) : Option Nat :=
  findFrom needle 0 hay

/-- Whether `needle` occurs anywhere. -/
def occursIn (needle hay : Bytes) : Bool :=
  (find? needle hay).isSome

/-- `needle` begins at place `at` of `hay`. -/
def OccursAt (needle hay : Bytes) (place : Nat) : Prop :=
  place ≤ hay.length ∧ needle <+: hay.drop place

section SearchLemmas

variable {needle hay rest : Bytes} {b : UInt8} {place : Nat}

theorem occursAt_zero : OccursAt needle hay 0 ↔ needle.isPrefixOf hay = true := by
  simp [OccursAt, List.isPrefixOf_iff_prefix]

theorem occursAt_succ : OccursAt needle (b :: rest) (place + 1) ↔ OccursAt needle rest place := by
  simp [OccursAt]

/-- An occurrence lies inside. -/
theorem OccursAt.length_le (occurs : OccursAt needle hay place) :
    place + needle.length ≤ hay.length := by
  have inside := occurs.1
  have length := occurs.2.length_le
  rw [List.length_drop] at length
  omega

theorem findFrom_eq_map (start : Nat) :
    findFrom needle start hay = (find? needle hay).map (start + ·) := by
  induction hay generalizing start with
  | nil => cases needle <;> simp [find?, findFrom]
  | cons b rest ih =>
    by_cases front : needle.isPrefixOf (b :: rest)
    · simp [find?, findFrom, front]
    · simp only [find?, findFrom, front, Bool.false_eq_true, if_false]
      rw [ih (start + 1), ih (0 + 1), Option.map_map]
      congr 1
      funext n
      simp only [Function.comp_apply]
      omega

theorem find?_cons :
    find? needle (b :: rest) =
      if needle.isPrefixOf (b :: rest) then some 0 else (find? needle rest).map (1 + ·) := by
  rw [find?, findFrom, findFrom_eq_map]

theorem find?_eq_some_iff :
    find? needle hay = some place ↔
      OccursAt needle hay place ∧ ∀ earlier, earlier < place → ¬ OccursAt needle hay earlier := by
  induction hay generalizing place with
  | nil =>
    cases needle with
    | nil =>
      simp only [find?, findFrom, List.isEmpty_nil, if_true, Option.some.injEq]
      constructor
      · rintro rfl; simp [OccursAt]
      · rintro ⟨found, -⟩; have := found.1; simp at this; omega
    | cons a as => simp [find?, findFrom, OccursAt]
  | cons b rest ih =>
    rw [find?_cons]
    by_cases front : needle.isPrefixOf (b :: rest)
    · have here := occursAt_zero.2 front
      rw [if_pos front, Option.some.injEq]
      constructor
      · rintro rfl; exact ⟨here, by omega⟩
      · rintro ⟨-, first⟩
        have := mt (first 0) (not_not_intro here)
        omega
    · have here : ¬ OccursAt needle (b :: rest) 0 := mt occursAt_zero.1 front
      rw [if_neg front]
      cases place with
      | zero => simp [here]
      | succ n =>
        simp only [Option.map_eq_some_iff, ih]
        constructor
        · rintro ⟨m, ⟨found, first⟩, same⟩
          obtain rfl : m = n := by omega
          refine ⟨occursAt_succ.2 found, fun earlier less => ?_⟩
          cases earlier with
          | zero => exact here
          | succ e => exact mt occursAt_succ.1 (first e (by omega))
        · rintro ⟨found, first⟩
          exact ⟨n, ⟨occursAt_succ.1 found,
            fun e less => mt occursAt_succ.2 (first (e + 1) (by omega))⟩, by omega⟩

theorem find?_eq_none_iff : find? needle hay = none ↔ ∀ place, ¬ OccursAt needle hay place := by
  induction hay with
  | nil =>
    cases needle with
    | nil => simpa [find?, findFrom] using ⟨0, by simp [OccursAt]⟩
    | cons a as => simp [find?, findFrom, OccursAt]
  | cons b rest ih =>
    rw [find?_cons]
    by_cases front : needle.isPrefixOf (b :: rest)
    · simpa [front] using ⟨0, occursAt_zero.2 front⟩
    · rw [if_neg front, Option.map_eq_none_iff, ih]
      constructor
      · intro none place
        cases place with
        | zero => exact mt occursAt_zero.1 front
        | succ n => exact mt occursAt_succ.1 (none n)
      · exact fun none place => mt occursAt_succ.2 (none (place + 1))

/-- Where there is no room for the needle it is not found. -/
theorem findFrom_of_short {start : Nat} (short : hay.length < needle.length) :
    findFrom needle start hay = none := by
  rw [findFrom_eq_map, find?_eq_none_iff.2]
  · rfl
  · intro place occurs
    have inside := occurs.length_le
    omega

end SearchLemmas

example : find? [2, 3] [1, 2, 2, 3, 2, 3] = some 2 := by decide
example : find? [3, 4] [1, 2, 3] = none := by decide
example : occursIn [] [] = true := by decide

end Bytes

end HttpForms
