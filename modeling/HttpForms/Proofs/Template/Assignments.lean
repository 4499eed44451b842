import Mathlib.Data.Finset.Card
import Mathlib.Data.List.Induction
import Mathlib.Data.List.Nodup
import HttpForms.Entries

/-!
# What a row of assignments leaves

An assignment replaces a value where it stands or adds an entry at the end. So the place of a name is
settled by its first assignment and its value by the last one, and both are said here of the row of
assignments alone: which name came before which other one, which of several names came first, and which
value a name was given last.

Results:

1. `get?_ofList_iff` — a name has the value that it was given last;
2. `pairwise_keys_ofList` — the names stand in the order in which they were first given;
3. `find?_keys_ofList` — the first name among them that passes a test is the first that was given;
4. `length_ofList` — there are as many entries as names.
-/

namespace HttpForms.Entries

variable {α : Type}

/-- The name was given the value, and was given none since. -/
def LastGiven (given : List (String × α)) (name : String) (value : α) : Prop :=
  ∃ earlier later, given = earlier ++ (name, value) :: later ∧ name ∉ later.map Prod.fst

/-- Of the names that pass the test, this one was the first to be given a value. -/
def FirstGiven (given : List (String × α)) (test : String → Prop) (name : String) : Prop :=
  ∃ earlier later, given.map Prod.fst = earlier ++ name :: later ∧ test name ∧
    ∀ other ∈ earlier, ¬ test other

/-- At some time one name had been given a value and the other one had not. -/
def GivenBefore (given : List (String × α)) (one other : String) : Prop :=
  ∃ earlier later, given.map Prod.fst = earlier ++ later ∧ one ∈ earlier ∧ other ∉ earlier

section Assignments

variable {name one other : String} {value : α} {entries given : List (String × α)}

/-! ## Values -/

theorem get?_eq_some_iff :
    get? entries name = some value ↔
      ∃ before after, entries = before ++ (name, value) :: after ∧ name ∉ before.map Prod.fst := by
  rw [get?, Option.map_eq_some_iff]
  constructor
  · rintro ⟨⟨key, _⟩, found, rfl⟩
    obtain ⟨same, before, after, split, passed⟩ := List.find?_eq_some_iff_append.1 found
    obtain rfl : key = name := beq_iff_eq.1 same
    refine ⟨before, after, split, fun mem => ?_⟩
    obtain ⟨entry, there, same⟩ := List.mem_map.1 mem
    simpa [same] using passed entry there
  · rintro ⟨before, after, split, absent⟩
    refine ⟨(name, value), List.find?_eq_some_iff_append.2 ⟨by simp, before, after, split, ?_⟩, rfl⟩
    intro entry there
    simpa using fun same => absent (List.mem_map.2 ⟨entry, there, same⟩)

/-- Where no name stands twice, an entry is what its name is answered with. -/
theorem mem_iff_get? (distinct : (entries.map Prod.fst).Nodup) :
    (name, value) ∈ entries ↔ get? entries name = some value := by
  rw [get?_eq_some_iff]
  constructor
  · intro mem
    obtain ⟨before, after, rfl⟩ := List.append_of_mem mem
    rw [List.map_append, List.map_cons, List.nodup_append] at distinct
    exact ⟨before, after, rfl, fun here => distinct.2.2 _ here _ List.mem_cons_self rfl⟩
  · rintro ⟨before, after, rfl, -⟩
    exact List.mem_append_right _ List.mem_cons_self

/-- A name is answered with the first of its assignments from the back. -/
theorem get?_ofList (given : List (String × α)) (name : String) :
    get? (ofList given) name = get? given.reverse name := by
  induction given using List.reverseRecOn with
  | nil => rfl
  | append_singleton earlier assignment ih =>
    obtain ⟨key, value⟩ := assignment
    rw [ofList_concat, get?_insert, List.reverse_concat, ih]
    by_cases same : key = name <;> simp [get?, same]

/-- A name has the value that it was given last. -/
theorem get?_ofList_iff : get? (ofList given) name = some value ↔ LastGiven given name value := by
  rw [get?_ofList, get?_eq_some_iff]
  constructor
  · rintro ⟨before, after, back, absent⟩
    refine ⟨after.reverse, before.reverse, ?_, by simpa using absent⟩
    simpa using congrArg List.reverse back
  · rintro ⟨earlier, later, rfl, absent⟩
    exact ⟨later.reverse, earlier.reverse, by simp, by simpa using absent⟩

/-! ## Names -/

/-- The first name that passes a test is the first that was given. -/
theorem find?_keys_ofList (test : String → Bool) (given : List (String × α)) :
    ((ofList given).map Prod.fst).find? test = (given.map Prod.fst).find? test := by
  induction given using List.reverseRecOn with
  | nil => rfl
  | append_singleton earlier assignment ih =>
    obtain ⟨name, value⟩ := assignment
    rw [ofList_concat, keys_insert, List.map_append, List.find?_append, ← ih]
    split
    · rename_i known
      cases found : ((ofList earlier).map Prod.fst).find? test with
      | some first => rfl
      | none => simpa using List.find?_eq_none.1 found name known
    · exact List.find?_append

theorem mem_keys_ofList : name ∈ (ofList given).map Prod.fst ↔ name ∈ given.map Prod.fst := by
  have both := congrArg Option.isSome (find?_keys_ofList (· == name) given)
  rw [Bool.eq_iff_iff, List.find?_isSome, List.find?_isSome] at both
  simpa using both

theorem GivenBefore.append (before : GivenBefore given one other) (more : List (String × α)) :
    GivenBefore (given ++ more) one other := by
  obtain ⟨earlier, later, split, there, absent⟩ := before
  refine ⟨earlier, later ++ more.map Prod.fst, ?_, there, absent⟩
  rw [List.map_append, split, List.append_assoc]

theorem GivenBefore.ne (before : GivenBefore given one other) : one ≠ other := by
  obtain ⟨earlier, later, -, there, absent⟩ := before
  exact ne_of_mem_of_not_mem there absent

/-- The names stand in the order in which they were first given. -/
theorem pairwise_keys_ofList (given : List (String × α)) :
    ((ofList given).map Prod.fst).Pairwise (GivenBefore given) := by
  induction given using List.reverseRecOn with
  | nil => exact .nil
  | append_singleton earlier assignment ih =>
    obtain ⟨name, value⟩ := assignment
    have still := ih.imp fun before => before.append [(name, value)]
    rw [ofList_concat, keys_insert]
    split
    · exact still
    · rename_i new
      refine List.pairwise_append.2 ⟨still, List.pairwise_singleton _ _, fun one there last mem => ?_⟩
      obtain rfl := List.mem_singleton.1 mem
      rw [mem_keys_ofList] at there new
      exact ⟨earlier.map Prod.fst, [last], List.map_append, there, new⟩

/-- No name stands twice, whatever was assigned. -/
theorem nodup_ofList (given : List (String × α)) : ((ofList given).map Prod.fst).Nodup :=
  (pairwise_keys_ofList given).imp GivenBefore.ne

/-- There are as many entries as names. -/
theorem length_ofList (given : List (String × α)) :
    (ofList given).length = (given.map Prod.fst).toFinset.card := by
  have names : ((ofList given).map Prod.fst).toFinset = (given.map Prod.fst).toFinset := by
    ext name
    rw [List.mem_toFinset, List.mem_toFinset, mem_keys_ofList]
  rw [← names, List.toFinset_card_of_nodup (nodup_ofList given), List.length_map]

/-! ## Searches -/

/-- A search for an entry by its name alone is a search among the names. -/
theorem find?_name (test : String → Bool) (entries : List (String × α)) :
    (entries.find? fun entry => test entry.1).map Prod.snd =
      ((entries.map Prod.fst).find? test).bind (get? entries) := by
  induction entries with
  | nil => rfl
  | cons entry rest ih =>
    obtain ⟨key, value⟩ := entry
    cases here : test key with
    | true => simp [here, get?]
    | false =>
      rw [List.map_cons, List.find?_cons_of_neg (by simp [here]),
        List.find?_cons_of_neg (by simp [here]), ih]
      refine Option.bind_congr fun name found => ?_
      -- The name that is found passes the test, so it is not the name of this entry.
      have other : key ≠ name := by
        rintro rfl
        exact absurd (List.find?_some found) (by simp [here])
      simp [get?, other]

/-- A search by a test of names ends at the first name that was given and gives its last value. -/
theorem find?_ofList_iff (test : String → Bool) :
    ((ofList given).find? fun entry => test entry.1).map Prod.snd = some value ↔
      ∃ name, FirstGiven given (test · = true) name ∧ LastGiven given name value := by
  rw [find?_name, find?_keys_ofList, Option.bind_eq_some_iff]
  refine exists_congr fun name => and_congr ?_ get?_ofList_iff
  rw [List.find?_eq_some_iff_append]
  constructor
  · rintro ⟨passes, earlier, later, split, failed⟩
    exact ⟨earlier, later, split, passes, by simpa using failed⟩
  · rintro ⟨earlier, later, split, passes, failed⟩
    exact ⟨passes, earlier, later, split, by simpa using failed⟩

/-! ## Assignments to distinct names -/

theorem insert_of_new (new : name ∉ entries.map Prod.fst) :
    insert name value entries = entries ++ [(name, value)] := by
  induction entries with
  | nil => rfl
  | cons entry rest ih =>
    rw [List.map_cons, List.mem_cons, not_or] at new
    simp [insert, Ne.symm new.1, ih new.2]

/-- Assignments to distinct names stay as they are. -/
theorem ofList_of_nodup (distinct : (given.map Prod.fst).Nodup) : ofList given = given := by
  induction given using List.reverseRecOn with
  | nil => rfl
  | append_singleton earlier assignment ih =>
    rw [List.map_append, List.map_singleton, List.nodup_append] at distinct
    rw [ofList_concat, ih distinct.1]
    exact insert_of_new fun mem => distinct.2.2 _ mem _ (List.mem_singleton_self _) rfl

end Assignments

end HttpForms.Entries
