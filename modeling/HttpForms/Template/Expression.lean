import HttpForms.Text.Blank
import HttpForms.Template.Operator
import HttpForms.Template.Variable
import HttpForms.Template.Value
import HttpForms.Template.Escape

/-!
# Expressions

An expression is one operator applied to a row of variables. Every defined variable contributes one
or more items, already escaped and named; the expansion is the items joined by the operator's
separator behind its lead, and nothing at all if there are no items.
-/

namespace HttpForms.Template

/-- An operator and its variables. -/
structure Expression where
  operator : Operator
  vars : List Variable
  deriving DecidableEq, Repr

namespace Expression

/-! ## From text -/

/-- The operator that the first character selects, and the text that is left for variables. -/
def splitOperator (body : List Char) : Operator × List Char :=
  match body with
  | [] => (.simple, [])
  | c :: rest =>
    match Operator.ofSigil? c with
    | some op => (op, rest)
    | none => (.simple, body)

/-- Reads what stands between braces. One malformed variable spoils the whole. -/
def ofChars? (body : List Char) : Option Expression :=
  let (operator, specs) := splitOperator body
  if specs.isEmpty then none
  else ((specs.splitOn ',').mapM Variable.ofChars?).map (Expression.mk operator)

/-- The spelling of an expression, without its braces. -/
def toChars (e : Expression) : List Char :=
  e.operator.sigil?.toList ++ [','].intercalate (e.vars.map Variable.toChars)

/-! ## Expansion -/

/-- Puts the name before a value if the operator asks for it. A blank value of an operator that does
not qualify empty ones leaves the bare name. -/
def qualify (op : Operator) (name value : String) : String :=
  if !op.isQualified then value
  else if !op.qualifiesEmpty && (Text.trim value).isEmpty then name
  else name ++ "=" ++ value

/-- The items one variable with a value contributes. -/
def items (op : Operator) (v : Variable) : Value → List String
  | .scalar text => [qualify op v.name (escape op.allowsReserved (truncate v.maxLength text))]
  | .list texts =>
    let escaped := texts.map fun text => escape op.allowsReserved (truncate v.maxLength text)
    if v.exploded then escaped.map (qualify op v.name)
    else [qualify op v.name (",".intercalate escaped)]
  | .map pairs =>
    if v.exploded then
      pairs.map fun (key, value) =>
        escape op.allowsReserved key ++ "=" ++ escape op.allowsReserved value
    else
      [qualify op v.name (",".intercalate (pairs.flatMap fun (key, value) =>
        [escape op.allowsReserved key, escape op.allowsReserved value]))]

/-- The value of a variable, unless it is absent or counts as absent. -/
def definedValue (lookup : Lookup) (names : NameMatch) (v : Variable) : Option Value :=
  (lookup names v.name).filter fun value => !value.isUndefined

/-- The items of all defined variables in order. -/
def allItems (e : Expression) (lookup : Lookup) (names : NameMatch) : List String :=
  e.vars.flatMap fun v =>
    match definedValue lookup names v with
    | some value => items e.operator v value
    | none => []

/-- The expansion of an expression. -/
def expand (e : Expression) (lookup : Lookup) (names : NameMatch) : String :=
  match e.allItems lookup names with
  | [] => ""
  | first :: others => e.operator.lead ++ e.operator.separator.intercalate (first :: others)

end Expression

end HttpForms.Template
