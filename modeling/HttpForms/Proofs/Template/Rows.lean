import Mathlib.Data.List.Basic
import HttpForms.Template.Expression

/-!
# Rows of variables

The variables of an expression stand in a row, and each defined one contributes its part: one item or
more, joined as the operator joins them. What an expression expands to depends on its items alone, and
the items of a row are those of its front followed by those of its back. So a row can be cut anywhere.
How the two expansions go together then depends on what the operator leads with.

Results:

1. `expand_eq_parts` — an expansion is the parts of the defined variables behind one lead;
2. `render_append` — where lead and separator are the same the two expansions stand side by side;
3. `expand_vars_append` — how every operator expands a row that is put together from two.
-/

namespace HttpForms.Template

namespace Variable

/-- A variable contributes nothing: it has no value, or an empty list or map. -/
def IsAbsent (v : Variable) (lookup : Lookup) (names : NameMatch) : Prop :=
  ∀ value, lookup names v.name = some value → value = .list [] ∨ value = .map []

end Variable

namespace Operator

/-- Items behind one lead, or nothing. -/
def render (op : Operator) (items : List String) : String :=
  if items.isEmpty then "" else op.lead ++ op.separator.intercalate items

end Operator

namespace Expression

/-- What a defined variable contributes: its items, joined. -/
def part? (op : Operator) (lookup : Lookup) (names : NameMatch) (v : Variable) : Option String :=
  (definedValue lookup names v).map fun value => op.separator.intercalate (items op v value)

/-- The parts of the defined variables in order. -/
def parts (op : Operator) (lookup : Lookup) (names : NameMatch) (vars : List Variable) :
    List String :=
  vars.filterMap (part? op lookup names)

section Values

variable {op : Operator} {lookup : Lookup} {names : NameMatch} {v : Variable} {value : Value}

theorem isUndefined_eq_true_iff : value.isUndefined = true ↔ value = .list [] ∨ value = .map [] := by
  cases value with
  | scalar text => simp [Value.isUndefined]
  | list texts => simp [Value.isUndefined]
  | map pairs => simp [Value.isUndefined]

theorem definedValue_eq_none_iff : definedValue lookup names v = none ↔ v.IsAbsent lookup names := by
  rw [definedValue, Option.filter_eq_none_iff]
  refine forall₂_congr fun value _ => ?_
  simp [isUndefined_eq_true_iff]

theorem part?_eq_none_iff : part? op lookup names v = none ↔ v.IsAbsent lookup names := by
  rw [part?, Option.map_eq_none_iff, definedValue_eq_none_iff]

theorem isUndefined_of_definedValue (defined : definedValue lookup names v = some value) :
    value.isUndefined = false := by
  obtain ⟨-, kept⟩ := Option.filter_eq_some_iff.1 defined
  simpa using kept

/-- A value that counts has items. -/
theorem items_ne_nil (defined : value.isUndefined = false) : items op v value ≠ [] := by
  cases value with
  | scalar text => exact List.cons_ne_nil _ _
  | list texts =>
    have solid : texts ≠ [] := by simpa [Value.isUndefined] using defined
    rw [items]
    split
    · simpa using solid
    · exact List.cons_ne_nil _ _
  | map pairs =>
    have solid : pairs ≠ [] := by simpa [Value.isUndefined] using defined
    rw [items]
    split
    · simpa using solid
    · exact List.cons_ne_nil _ _

/-- The two operators of queries write values alike; only their leads differ. -/
theorem items_query (v : Variable) (value : Value) :
    items .query v value = items .queryContinuation v value := by
  cases value <;> rfl

end Values

section Rows

variable {op : Operator} {lookup : Lookup} {names : NameMatch} {v : Variable} {vars : List Variable}
  {front back : List String}

theorem expand_eq_render (e : Expression) (lookup : Lookup) (names : NameMatch) :
    e.expand lookup names = e.operator.render (e.allItems lookup names) := by
  rw [expand]
  cases e.allItems lookup names with
  | nil => rfl
  | cons first others => rfl

theorem allItems_append (op : Operator) (front back : List Variable) (lookup : Lookup)
    (names : NameMatch) :
    (Expression.mk op (front ++ back)).allItems lookup names =
      (Expression.mk op front).allItems lookup names ++
        (Expression.mk op back).allItems lookup names :=
  List.flatMap_append

theorem allItems_cons_absent (absent : v.IsAbsent lookup names) :
    (Expression.mk op (v :: vars)).allItems lookup names =
      (Expression.mk op vars).allItems lookup names := by
  rw [allItems, List.flatMap_cons, definedValue_eq_none_iff.2 absent]
  rfl

theorem allItems_query (vars : List Variable) (lookup : Lookup) (names : NameMatch) :
    (Expression.mk .query vars).allItems lookup names =
      (Expression.mk .queryContinuation vars).allItems lookup names := by
  refine List.flatMap_congr fun v _ => ?_
  cases definedValue lookup names v with
  | none => rfl
  | some value => exact items_query v value

theorem render_nil (op : Operator) : op.render [] = "" :=
  rfl

theorem render_of_ne_nil (solid : front ≠ []) :
    op.render front = op.lead ++ op.separator.intercalate front := by
  rw [Operator.render, if_neg (by simpa using solid)]

/-- Where lead and separator are the same two rows of items stand side by side. -/
theorem render_append (same : op.lead = op.separator) (front back : List String) :
    op.render (front ++ back) = op.render front ++ op.render back := by
  by_cases before : front = []
  · simp [before, render_nil]
  by_cases behind : back = []
  · simp [behind, render_nil]
  calc op.render (front ++ back)
      = op.lead ++ (op.separator.intercalate front ++ op.separator ++
          op.separator.intercalate back) := by
        rw [render_of_ne_nil (by simp [before]), String.intercalate_append_of_ne_nil before behind]
    _ = (op.lead ++ op.separator.intercalate front) ++
          (op.lead ++ op.separator.intercalate back) := by
        rw [same]
        simp only [String.append_assoc]
    _ = op.render front ++ op.render back := by
        rw [render_of_ne_nil before, render_of_ne_nil behind]

/-- A row of items that go on with a query is led by what separates them. -/
theorem render_query_append (solid : front ≠ []) (back : List String) :
    Operator.render .query (front ++ back) =
      Operator.render .query front ++ Operator.render .queryContinuation back := by
  by_cases behind : back = []
  · simp [behind, render_nil]
  · rw [render_of_ne_nil (by simp [solid]), render_of_ne_nil solid, render_of_ne_nil behind,
      String.intercalate_append_of_ne_nil solid behind]
    simp only [Operator.lead, Operator.separator, String.append_assoc]

theorem render_query_eq_empty_iff : Operator.render .query front = "" ↔ front = [] := by
  constructor
  · intro empty
    cases front with
    | nil => rfl
    | cons first others =>
      rw [render_of_ne_nil (List.cons_ne_nil _ _)] at empty
      have lead : Operator.lead .query = "" := (String.append_eq_empty_iff.1 empty).1
      exact absurd lead (by decide)
  · rintro rfl
    rfl

/-- Joining rows that are joined already is joining all of their items. -/
theorem intercalate_flatten (separator : String) {rows : List (List String)}
    (solid : ∀ row ∈ rows, row ≠ []) :
    separator.intercalate rows.flatten = separator.intercalate (rows.map separator.intercalate) := by
  induction rows with
  | nil => rfl
  | cons row rows ih =>
    have first := solid row List.mem_cons_self
    have others := fun row later => solid row (List.mem_cons_of_mem _ later)
    rw [List.flatten_cons, List.map_cons]
    cases rows with
    | nil => simp
    | cons next rows =>
      have behind : (next :: rows).flatten ≠ [] := by
        simp [others next List.mem_cons_self]
      rw [String.intercalate_append_of_ne_nil first behind, ih others,
        String.intercalate_cons_of_ne_nil (by simp)]

/-- The items of a row are the items of its defined variables, each of which has some. -/
theorem exists_rows (op : Operator) (lookup : Lookup) (names : NameMatch) (vars : List Variable) :
    ∃ rows : List (List String), (∀ row ∈ rows, row ≠ []) ∧
      (Expression.mk op vars).allItems lookup names = rows.flatten ∧
      parts op lookup names vars = rows.map op.separator.intercalate := by
  induction vars with
  | nil => exact ⟨[], by simp, rfl, rfl⟩
  | cons v vars ih =>
    obtain ⟨rows, solid, items_, parts_⟩ := ih
    cases defined : definedValue lookup names v with
    | none =>
      have absent := definedValue_eq_none_iff.1 defined
      refine ⟨rows, solid, by rw [allItems_cons_absent absent, items_], ?_⟩
      rw [parts, List.filterMap_cons_none (part?_eq_none_iff.2 absent)]
      exact parts_
    | some value =>
      have own : items op v value ≠ [] := items_ne_nil (isUndefined_of_definedValue defined)
      refine ⟨items op v value :: rows, List.forall_mem_cons.2 ⟨own, solid⟩, ?_, ?_⟩
      · rw [List.flatten_cons, ← items_, allItems, List.flatMap_cons, defined]
        rfl
      · have part : part? op lookup names v = some (op.separator.intercalate (items op v value)) := by
          rw [part?, defined]
          rfl
        rw [parts, List.filterMap_cons_some part, List.map_cons, ← parts_]
        rfl

/-- An expansion is the parts of the defined variables behind one lead. -/
theorem expand_eq_parts (op : Operator) (vars : List Variable) (lookup : Lookup) (names : NameMatch) :
    (Expression.mk op vars).expand lookup names = op.render (parts op lookup names vars) := by
  obtain ⟨rows, solid, items_, parts_⟩ := exists_rows op lookup names vars
  rw [expand_eq_render, items_, parts_]
  cases rows with
  | nil => rfl
  | cons row rows =>
    have some_ : (row :: rows).flatten ≠ [] := by
      simp [solid row List.mem_cons_self]
    rw [render_of_ne_nil some_, intercalate_flatten _ solid, render_of_ne_nil (by simp)]

theorem parts_eq_nil_iff :
    parts op lookup names vars = [] ↔ ∀ v ∈ vars, v.IsAbsent lookup names := by
  rw [parts, List.filterMap_eq_nil_iff]
  exact forall₂_congr fun v _ => part?_eq_none_iff

end Rows

end Expression

open Expression (part? parts)

/-- How a row expands that is put together from two. An operator that leads with its separator puts
the two expansions side by side. A query goes on as a continuation once something stands before it.
The others write their lead once, and the parts of all defined variables with single commas between
them; a part is what its variable expands to alone. A variable that is absent leaves no trace. -/
theorem expand_vars_append (front back : List Variable) (lookup : Lookup) (names : NameMatch) :
    (∀ op ∈ [Operator.label, .pathSegment, .pathParameter, .queryContinuation],
      op.lead = op.separator ∧
      (Expression.mk op (front ++ back)).expand lookup names =
        (Expression.mk op front).expand lookup names ++
          (Expression.mk op back).expand lookup names) ∧
    ((Expression.mk .query (front ++ back)).expand lookup names =
      if (Expression.mk .query front).expand lookup names = "" then
        (Expression.mk .query back).expand lookup names
      else
        (Expression.mk .query front).expand lookup names ++
          (Expression.mk .queryContinuation back).expand lookup names) ∧
    (∀ op ∈ [Operator.simple, .reserved, .fragment],
      ((∀ v ∈ front ++ back, v.IsAbsent lookup names) →
        (Expression.mk op (front ++ back)).expand lookup names = "") ∧
      ((∃ v ∈ front ++ back, ¬ v.IsAbsent lookup names) →
        (Expression.mk op (front ++ back)).expand lookup names =
          op.lead ++ ",".intercalate
            (parts op lookup names front ++ parts op lookup names back))) ∧
    (∀ op v, (part? op lookup names v = none ↔ v.IsAbsent lookup names) ∧
      ∀ part, part? op lookup names v = some part →
        (Expression.mk op [v]).expand lookup names = op.lead ++ part) ∧
    ∀ op v, v.IsAbsent lookup names →
      (Expression.mk op (front ++ v :: back)).expand lookup names =
        (Expression.mk op (front ++ back)).expand lookup names := by
  refine ⟨fun op here => ?_, ?_, fun op here => ⟨fun absent => ?_, fun defined => ?_⟩,
    fun op v => ⟨Expression.part?_eq_none_iff, fun part own => ?_⟩, fun op v absent => ?_⟩
  · have same : op.lead = op.separator := by
      revert op
      decide
    refine ⟨same, ?_⟩
    rw [Expression.expand_eq_render, Expression.expand_eq_render, Expression.expand_eq_render,
      Expression.allItems_append]
    exact Expression.render_append same _ _
  · simp only [Expression.expand_eq_render, Expression.allItems_append,
      Expression.render_query_eq_empty_iff]
    split
    · rename_i none_
      rw [none_, List.nil_append]
    · rename_i some_
      rw [← Expression.allItems_query back]
      exact Expression.render_query_append some_ _
  · rw [Expression.expand_eq_parts, Expression.parts_eq_nil_iff.2 absent]
    rfl
  · have comma : op.separator = "," := by
      clear defined
      revert op
      decide
    have some_ : parts op lookup names (front ++ back) ≠ [] := by
      intro none_
      obtain ⟨v, mem, defined⟩ := defined
      exact defined (Expression.parts_eq_nil_iff.1 none_ v mem)
    rw [Expression.expand_eq_parts, Expression.render_of_ne_nil some_, comma, parts,
      List.filterMap_append]
    rfl
  · have alone : parts op lookup names [v] = [part] := List.filterMap_cons_some own
    rw [Expression.expand_eq_parts, alone, Expression.render_of_ne_nil (List.cons_ne_nil _ _),
      String.intercalate_singleton]
  · rw [Expression.expand_eq_render, Expression.expand_eq_render, Expression.allItems_append,
      Expression.allItems_append, Expression.allItems_cons_absent absent]

/-- Values that are empty although they are defined, and one that counts as absent. -/
def rowLookup : Lookup := fun _ name =>
  if name = "e" then some (.scalar "")
  else if name = "l" then some (.list ["", "x,y"])
  else if name = "m" then some (.map [("k", "v w")])
  else if name = "none" then some (.map [])
  else none

/-- An empty map and an empty text in front, a list that is spread out and a map behind. -/
theorem expand_vars_append_sample :
    let front : List Variable := [.plain "none", .plain "e"]
    let back : List Variable := [⟨"l", none, true⟩, .plain "m"]
    Operator.label ∈ [Operator.label, .pathSegment, .pathParameter, .queryContinuation] ∧
    (Expression.mk .label (front ++ back)).expand rowLookup .exact = "." ++ "..x%2Cy.k,v+w" ∧
    (Expression.mk .query (front ++ back)).expand rowLookup .exact =
      "?e=" ++ "&l=&l=x%2Cy&m=k,v+w" ∧
    Operator.fragment ∈ [Operator.simple, .reserved, .fragment] ∧
    (∃ v ∈ front ++ back, ¬ v.IsAbsent rowLookup .exact) ∧
    (Expression.mk .fragment (front ++ back)).expand rowLookup .exact =
      "#" ++ ",".intercalate ([""] ++ [",x,y", "k,v+w"]) ∧
    (Variable.plain "none").IsAbsent rowLookup .exact ∧
    (Expression.mk .simple (front ++ .plain "none" :: back)).expand rowLookup .exact =
      ",,x%2Cy,k,v+w" := by
  intro front back
  obtain ⟨beside, query, listed, -, trace⟩ := expand_vars_append front back rowLookup .exact
  have defined : ∃ v ∈ front ++ back, ¬ v.IsAbsent rowLookup .exact :=
    ⟨.plain "e", by decide, fun absent => by simpa using absent (.scalar "") (by decide +kernel)⟩
  have absent : (Variable.plain "none").IsAbsent rowLookup .exact :=
    Expression.definedValue_eq_none_iff.1 (by decide +kernel)
  refine ⟨by decide, (beside .label (by decide)).2.trans (by decide +kernel),
    query.trans (by decide +kernel), by decide, defined, ?_, absent,
    (trace .simple _ absent).trans (by decide +kernel)⟩
  exact ((listed .fragment (by decide)).2 defined).trans (by decide +kernel)

end HttpForms.Template
