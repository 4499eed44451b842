/-!
# Cutting at a mark

Headers, parameters and media types are all read the same way: what stands before the first mark is
one thing, what stands after it another.

Results:

1. `cut?_eq_some_iff` — the cut is at the first mark and loses nothing but it;
2. `not_mem_of_mem_splitOn` — where every mark cuts, no piece holds one.
-/

namespace HttpForms

variable {α : Type} [BEq α]

/-- What stands before and after the first `mark`, if there is one. -/
def cut? (mark : α) : List α → Option (List α × List α)
  | [] => none
  | a :: rest =>
    if a == mark then some ([], rest)
    else (cut? mark rest).map fun (before, after) => (a :: before, after)

theorem cut?_eq_some_iff [LawfulBEq α] {mark : α} {l before after : List α} :
    cut? mark l = some (before, after) ↔ l = before ++ mark :: after ∧ mark ∉ before := by
  induction l generalizing before with
  | nil => simp [cut?]
  | cons a rest ih =>
    by_cases here : a = mark
    · subst here
      cases before with
      | nil => simp [cut?]
      | cons b before =>
        simp only [cut?, beq_self_eq_true, if_true, Option.some.injEq, Prod.mk.injEq,
          List.cons_append, List.cons.injEq, List.mem_cons, not_or]
        exact ⟨fun same => absurd same.1 (by simp), fun same => absurd same.1.1 same.2.1⟩
    · cases before with
      | nil => simp [cut?, here]
      | cons b before =>
        simp only [cut?, beq_iff_eq, here, if_false, Option.map_eq_some_iff, Prod.exists,
          Prod.mk.injEq, List.cons.injEq, List.cons_append, List.mem_cons, not_or]
        constructor
        · rintro ⟨x, y, found, ⟨rfl, rfl⟩, rfl⟩
          exact ⟨⟨rfl, (ih.1 found).1⟩, Ne.symm here, (ih.1 found).2⟩
        · rintro ⟨⟨rfl, same⟩, -, absent⟩
          exact ⟨before, after, ih.2 ⟨same, absent⟩, ⟨rfl, rfl⟩, rfl⟩

theorem cut?_eq_none_iff [LawfulBEq α] {mark : α} {l : List α} : cut? mark l = none ↔ mark ∉ l := by
  induction l with
  | nil => simp [cut?]
  | cons a rest ih => by_cases here : a = mark <;> simp [cut?, here, ih, Ne.symm]

/-- Where every mark cuts, no piece holds one. -/
theorem not_mem_of_mem_splitOn [LawfulBEq α] {mark : α} {l piece : List α}
    (mem : piece ∈ l.splitOn mark) : mark ∉ piece := by
  by_cases here : mark ∈ l
  · obtain ⟨first, rest, same, free⟩ := List.eq_append_cons_of_mem here
    rw [same, List.splitOn_append_cons_self_of_not_mem free, List.mem_cons] at mem
    rcases mem with rfl | later
    · exact free
    · exact not_mem_of_mem_splitOn later
  · rw [List.splitOn_eq_singleton here, List.mem_singleton] at mem
    rwa [mem]
termination_by l.length
decreasing_by simp [same]; omega

end HttpForms
