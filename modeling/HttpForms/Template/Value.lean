/-!
# Values of variables

A variable stands for one text, a list of texts, or pairs of texts. Pairs are expanded in the order
given. A lookup answers which value a name has; what it does not answer is absent.
-/

namespace HttpForms.Template

/-- What a variable can stand for. -/
inductive Value
  | scalar (text : String)
  | list (items : List String)
  | map (pairs : List (String × String))
  deriving DecidableEq, Repr

/-- An empty list and an empty map count as absent. -/
def Value.isUndefined : Value → Bool
  | .scalar _ => false
  | .list items => items.isEmpty
  | .map pairs => pairs.isEmpty

/-- How the name of a variable is compared with the names that have values. -/
inductive NameMatch
  | exact
  | ignoringCase
  deriving DecidableEq, Repr

/-- Where values come from: the value of a name, if it has one. -/
abbrev Lookup := NameMatch → String → Option Value

end HttpForms.Template
