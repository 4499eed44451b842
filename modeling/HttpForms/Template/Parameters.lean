import HttpForms.Entries
import HttpForms.Json
import HttpForms.Text.Case
import HttpForms.Template.Value

/-!
# Sources of values

Values come from a container of parameters or straight from a JSON document. Both answer the same
questions: a name is looked up exactly, or by its lower-casing, where the first match decides.
-/

namespace HttpForms.Template

/-- Whether a name that has a value is the name asked for. -/
def NameMatch.test (names : NameMatch) (candidate name : String) : Bool :=
  match names with
  | .exact => candidate == name
  | .ignoringCase => Text.lower candidate == Text.lower name

/-! ## Values of a JSON document -/

namespace Value

/-- The text of a string, a number or a truth value. -/
def scalarOfJson? : Json → Option String
  | .string s => some s
  | .number n => some n.text
  | .bool b => some (if b then "true" else "false")
  | _ => none

/-- The texts of the items that are not null, if all of them are scalars. -/
def textsOfJson? : List Json → Option (List String)
  | [] => some []
  | .null :: rest => textsOfJson? rest
  | item :: rest => do
    let text ← scalarOfJson? item
    return text :: (← textsOfJson? rest)

/-- The names and texts of the members that are not null, if all of them are scalars. -/
def pairsOfJson? : List (String × Json) → Option (List (String × String))
  | [] => some []
  | (_, .null) :: rest => pairsOfJson? rest
  | (key, member) :: rest => do
    let text ← scalarOfJson? member
    return (key, text) :: (← pairsOfJson? rest)

/-- The value a document stands for. Null has none, and neither has anything nested deeper than a
list or map of scalars. -/
def ofJson? : Json → Option Value
  | .array items => (textsOfJson? items).map .list
  | .object members => (pairsOfJson? members).map .map
  | json => (scalarOfJson? json).map .scalar

end Value

/-- Looks a name up among the members of a document. The first member that matches decides, also
when it has no value. -/
def ofDocument (json : Json) : Lookup := fun names name =>
  match json with
  | .object members =>
    (members.find? fun (key, _) => names.test key name).bind fun (_, member) => Value.ofJson? member
  | _ => none

/-! ## Containers of parameters -/

/-- Named values in the order of their first assignment. -/
structure Parameters where
  entries : List (String × Value)
  deriving DecidableEq, Repr

namespace Parameters

/-- No parameters. -/
def empty : Parameters := ⟨[]⟩

/-- Gives a name a value; an earlier value is replaced where it stands. -/
def insert (p : Parameters) (name : String) (value : Value) : Parameters :=
  ⟨Entries.insert name value p.entries⟩

/-- Gives a name a value and hands the parameters on, so that assignments can be chained. -/
def set (p : Parameters) (name : String) (value : Value) : Parameters :=
  p.insert name value

/-- The parameters that a row of assignments leaves. -/
def ofList (assignments : List (String × Value)) : Parameters :=
  assignments.foldl (fun p (name, value) => p.insert name value) empty

theorem ofList_entries (assignments : List (String × Value)) :
    (ofList assignments).entries = Entries.ofList assignments := by
  rw [ofList, Entries.ofList]
  exact (List.foldl_hom entries fun _ _ => rfl).symm

/-- The same parameters by ascending name. -/
def sorted (p : Parameters) : Parameters :=
  ⟨Entries.sorted p.entries⟩

/-- The value of a name. -/
def get? (p : Parameters) (name : String) : Option Value :=
  Entries.get? p.entries name

/-- The number of names that have a value. -/
def size (p : Parameters) : Nat :=
  p.entries.length

/-- Looks a name up among the parameters. -/
def lookup (p : Parameters) : Lookup := fun names name =>
  (p.entries.find? fun (key, _) => names.test key name).map Prod.snd

/-- A document that has no members to take parameters from. -/
inductive DocumentError
  | notAnObject
  deriving DecidableEq, Repr

/-- The wording of the error. -/
def DocumentError.message : DocumentError → String
  | .notAnObject => "template parameters must serialize to a map or struct"

/-- Takes the members of a document that have a value as parameters. -/
def ofJson : Json → Except DocumentError Parameters
  | .object members => .ok <| ofList <| members.filterMap fun (name, member) =>
      (Value.ofJson? member).map fun value => (name, value)
  | _ => .error .notAnObject

end Parameters

end HttpForms.Template
