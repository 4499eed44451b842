/-!
# Character classes from tables

A class of characters that no formula describes is a table of inclusive ranges of scalar numbers.
-/

namespace HttpForms

/-- Whether one of the ranges holds the number. -/
def inRanges (table : List (Nat × Nat)) (n : Nat) : Bool :=
  table.any fun (first, last) => first ≤ n && n ≤ last

/-- The reading of a table as a set. -/
theorem inRanges_iff {table : List (Nat × Nat)} {n : Nat} :
    inRanges table n = true ↔ ∃ range ∈ table, range.1 ≤ n ∧ n ≤ range.2 := by
  simp [inRanges, List.any_eq_true]

end HttpForms
