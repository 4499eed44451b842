/-!
# Entries in order

A row of named values in which no name stands twice. A new name goes to the end, and a name that is
already there keeps its place and takes the new value.
-/

namespace HttpForms.Entries

variable {α : Type}

/-- The value of a name. -/
def get? (entries : List (String × α)) (name : String) : Option α :=
  (entries.find? fun entry => entry.1 == name).map Prod.snd

/-- Gives a name a value. -/
def insert (name : String) (value : α) : List (String × α) → List (String × α)
  | [] => [(name, value)]
  | entry :: rest =>
    if entry.1 == name then (entry.1, value) :: rest else entry :: insert name value rest

/-- The entries that a row of assignments leaves. -/
def ofList (assignments : List (String × α)) : List (String × α) :=
  assignments.foldl (fun entries (name, value) => insert name value entries) []

/-- The entries by ascending name. -/
def sorted (entries : List (String × α)) : List (String × α) :=
  entries.mergeSort fun a b => a.1 ≤ b.1

theorem get?_insert (name other : String) (value : α) (entries : List (String × α)) :
    get? (insert name value entries) other = if name == other then some value
      else get? entries other := by
  induction entries with
  | nil => by_cases same : name = other <;> simp [insert, get?, same]
  | cons entry rest ih =>
    obtain ⟨key, old⟩ := entry
    simp only [get?] at ih
    by_cases here : key = name
    · subst here
      by_cases same : key = other <;> simp [insert, get?, same]
    · by_cases same : key = other
      · subst same
        simp [insert, get?, here, Ne.symm here]
      · simp [insert, get?, here, same, ih]

theorem keys_insert (name : String) (value : α) (entries : List (String × α)) :
    (insert name value entries).map Prod.fst =
      if name ∈ entries.map Prod.fst then entries.map Prod.fst
      else entries.map Prod.fst ++ [name] := by
  induction entries with
  | nil => simp [insert]
  | cons entry rest ih =>
    by_cases here : entry.1 = name
    · simp [insert, here]
    · by_cases later : name ∈ rest.map Prod.fst
      · simp [insert, here, ih, later]
      · simp [insert, here, ih, later, Ne.symm here]

theorem ofList_concat (assignments : List (String × α)) (name : String) (value : α) :
    ofList (assignments ++ [(name, value)]) = insert name value (ofList assignments) := by
  rw [ofList, List.foldl_append]
  rfl

example : ofList [("a", 1), ("b", 2), ("a", 3)] = [("a", 3), ("b", 2)] := by decide +kernel

end HttpForms.Entries
