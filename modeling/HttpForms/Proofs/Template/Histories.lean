import HttpForms.Proofs.Template.Assignments
import HttpForms.Template.Parameters

/-!
# Parameters and how they came about

A container of parameters begins empty or is collected from pairs, and is given values one after
another from then on. Its history is the row of all these assignments, the collected pairs first. The
history alone settles what the container holds and what it answers: a search for a name ends at the
name that was given first among those that match, and gives the value that this name was given last.
Replacing a value moves no entry, so a name that is given again is not passed by a later one.

Results:

1. `History.entries_eq` — a container holds what its history leaves;
2. `History.lookup_iff` — what each kind of search answers;
3. `ordered_map_of_history` — a container is an ordered map over its history.
-/

namespace HttpForms.Template.Parameters

open Entries (LastGiven FirstGiven GivenBefore)

/-- The container came about by these assignments, in this order: it was empty or collected at first,
and each assignment since was made in place or in a chain. -/
inductive History : List (String × Value) → Parameters → Prop
  | empty : History [] .empty
  | collected (pairs : List (String × Value)) : History pairs (.ofList pairs)
  | set {given : List (String × Value)} {p : Parameters} (name : String) (value : Value) :
      History given p → History (given ++ [(name, value)]) (p.set name value)
  | insert {given : List (String × Value)} {p : Parameters} (name : String) (value : Value) :
      History given p → History (given ++ [(name, value)]) (p.insert name value)

section Histories

variable {given : List (String × Value)} {p : Parameters} {names : NameMatch} {name : String}
  {value : Value}

/-- One assignment more, in the entries and in the history. -/
theorem entries_insert (entries : p.entries = Entries.ofList given) (name : String) (value : Value) :
    (p.insert name value).entries = Entries.ofList (given ++ [(name, value)]) := by
  rw [Entries.ofList_concat, ← entries]
  rfl

/-- A container holds what its history leaves. -/
theorem History.entries_eq (history : History given p) : p.entries = Entries.ofList given := by
  induction history with
  | empty => rfl
  | collected pairs => exact ofList_entries pairs
  | set name value _ ih => exact entries_insert ih name value
  | insert name value _ ih => exact entries_insert ih name value

/-- A search ends at the name that was given first among those that match, and gives the value that
this name was given last. -/
theorem History.lookup_iff (history : History given p) :
    p.lookup names name = some value ↔
      ∃ key, FirstGiven given (fun other => names.test other name = true) key ∧
        LastGiven given key value := by
  have search : p.lookup names name =
      ((Entries.ofList given).find? fun entry => names.test entry.1 name).map Prod.snd := by
    rw [← history.entries_eq]
    rfl
  rw [search]
  exact Entries.find?_ofList_iff fun key => names.test key name

/-- A container is an ordered map over its history. No name stands twice, and the names stand in the
order in which they were first given. The entries are the names with the values they were given last,
and there are as many as names were given. A name is answered with the value it was given last, also by
a search for exact names; a search that ignores case answers with the value of the first name that was
given among those of the same lower-casing. -/
theorem ordered_map_of_history (history : History given p) :
    (p.entries.map Prod.fst).Nodup ∧
    (p.entries.map Prod.fst).Pairwise (GivenBefore given) ∧
    (∀ name value, (name, value) ∈ p.entries ↔ LastGiven given name value) ∧
    p.size = (given.map Prod.fst).toFinset.card ∧
    (∀ name value, p.get? name = some value ↔ LastGiven given name value) ∧
    (∀ name value, p.lookup .exact name = some value ↔ LastGiven given name value) ∧
    ∀ name value, p.lookup .ignoringCase name = some value ↔
      ∃ key, FirstGiven given (fun other => Text.lower other = Text.lower name) key ∧
        LastGiven given key value := by
  have entries := history.entries_eq
  have answer : ∀ name value, p.get? name = some value ↔ LastGiven given name value := by
    intro name value
    rw [get?, entries]
    exact Entries.get?_ofList_iff
  refine ⟨?_, ?_, fun name value => ?_, ?_, answer, answer, fun name value => ?_⟩
  · rw [entries]
    exact Entries.nodup_ofList given
  · rw [entries]
    exact Entries.pairwise_keys_ofList given
  · rw [entries, Entries.mem_iff_get? (Entries.nodup_ofList given)]
    exact Entries.get?_ofList_iff
  · rw [size, entries]
    exact Entries.length_ofList given
  · rw [history.lookup_iff]
    simp only [NameMatch.test, beq_iff_eq]

/-- A name is collected twice and given again behind another one of the same lower-casing: it keeps its
place, and a search that ignores case finds its newest value. -/
theorem ordered_map_of_history_sample :
    let given := [("a", .scalar "1"), ("B", .scalar "2"), ("a", .scalar "3")] ++
      [("b", .scalar "4")] ++ [("B", .scalar "5")]
    let p := ((ofList [("a", .scalar "1"), ("B", .scalar "2"), ("a", .scalar "3")]).set "b"
      (.scalar "4")).insert "B" (.scalar "5")
    History given p ∧ p.entries = [("a", .scalar "3"), ("B", .scalar "5"), ("b", .scalar "4")] ∧
      p.size = (given.map Prod.fst).toFinset.card ∧ LastGiven given "B" (.scalar "5") ∧
      p.lookup .ignoringCase "b" = some (.scalar "5") := by
  intro given p
  have history : History given p := .insert "B" _ (.set "b" _ (.collected _))
  have entries : p.entries = [("a", .scalar "3"), ("B", .scalar "5"), ("b", .scalar "4")] := by
    decide +kernel
  obtain ⟨-, -, -, size, get, -, search⟩ := ordered_map_of_history history
  have last : LastGiven given "B" (.scalar "5") := (get _ _).1 (by decide +kernel)
  refine ⟨history, entries, size, last, (search _ _).2 ⟨"B", ?_, last⟩⟩
  exact ⟨["a"], ["a", "b", "B"], rfl, by decide +kernel, by decide +kernel⟩

end Histories

end HttpForms.Template.Parameters
