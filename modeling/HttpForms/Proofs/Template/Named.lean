import Mathlib.Data.List.Forall2
import HttpForms.Cut
import HttpForms.Proofs.Template.Escape
import HttpForms.Proofs.Template.Rows
import HttpForms.Proofs.Text.Blank

/-!
# Named expansions are read back

The operators of parameters and queries write every value behind a name, so an expansion is a row of
items `label=value,value,…`. Reading it takes no knowledge of the variables: it is cut at separators,
at the first equals sign of each item and at commas, and the values are read as a form is read. What
comes back are the bindings of the defined variables, one after the other and nothing else.

Results:

1. `ofItem?_qualify`, `ofItem?_pair` — one item is read back as its binding;
2. `reads_items` — the items of a variable are read back as its bindings;
3. `expand_reads_back` — so is an expansion as a whole.
-/

namespace HttpForms.Template

open Expression (qualify items definedValue)

/-! ## Bindings -/

/-- What stands before the values of an item. -/
inductive Label
  /-- The name of a variable, written as it is. -/
  | name (text : String)
  /-- A key of a map that is spread out, written as a value is. -/
  | key (text : String)
  deriving DecidableEq, Repr

/-- A label and the values behind it. -/
structure Binding where
  label : Label
  values : List String
  deriving DecidableEq, Repr

/-- What a variable with a value binds. Values of maps are never cut. -/
def Variable.bindings (v : Variable) : Value → List Binding
  | .scalar text => [⟨.name v.name, [truncate v.maxLength text]⟩]
  | .list texts =>
    if v.exploded then texts.map fun text => ⟨.name v.name, [truncate v.maxLength text]⟩
    else [⟨.name v.name, texts.map (truncate v.maxLength)⟩]
  | .map pairs =>
    if v.exploded then pairs.map fun (key, value) => ⟨.key key, [value]⟩
    else [⟨.name v.name, pairs.flatMap fun (key, value) => [key, value]⟩]

/-- What all defined variables of an expression bind, in order. -/
def Expression.bindings (e : Expression) (lookup : Lookup) (names : NameMatch) : List Binding :=
  e.vars.flatMap fun v =>
    match definedValue lookup names v with
    | some value => v.bindings value
    | none => []

/-! ## Reading -/

/-- One item as it is read: the label as it is written, and the values. -/
structure Reading where
  label : List Char
  values : List String
  deriving DecidableEq, Repr

/-- Reads an item. Without an equals sign all of it is the label, and the value is empty. -/
def Reading.ofItem? (item : List Char) : Option Reading :=
  let (label, value) := (cut? '=' item).getD (item, [])
  ((value.splitOn ',').mapM formDecode?).map (Reading.mk label)

/-- The character that separates the items of an operator. -/
def Operator.mark (op : Operator) : Char :=
  op.separator.toList.headD ','

/-- Reads what stands behind the lead of an expansion. -/
def readBack? (op : Operator) (body : String) : Option (List Reading) :=
  (body.toList.splitOn op.mark).mapM Reading.ofItem?

/-- How a label is written. -/
def Label.Spelled (written : List Char) : Label → Prop
  | .name text => written = text.toList
  | .key text => formDecode? written = some text

/-- What is read is what was bound. -/
structure Reading.Reads (r : Reading) (b : Binding) : Prop where
  label : b.label.Spelled r.label
  values : r.values = b.values

/-! ## Items -/

section ItemLemmas

variable {op : Operator} {name key value : String} {texts : List String} {lookup : Lookup}
  {names : NameMatch} {v : Variable}

theorem toList_separator (op : Operator) : op.separator.toList = [op.mark] := by
  cases op <;> rfl

/-- Values as they are written, behind each other. -/
def written (texts : List String) : String :=
  ",".intercalate (texts.map (escape false))

theorem toList_written (texts : List String) :
    (written texts).toList = [','].intercalate (texts.map fun text => (escape false text).toList) := by
  rw [written, String.toList_intercalate, List.map_map]
  rfl

/-- Values that are cut apart at the commas are read back. -/
theorem values_written (solid : texts ≠ []) :
    ((written texts).toList.splitOn ',').mapM formDecode? = some texts := by
  rw [toList_written, List.splitOn_intercalate ',' ?_ (by simpa using solid)]
  · clear solid
    induction texts with
    | nil => rfl
    | cons text texts ih => simp [formDecode?_escape, ih]
  · intro part here
    obtain ⟨text, -, rfl⟩ := List.mem_map.1 here
    exact not_mem_escape (by decide +kernel) (by decide) (by decide)

theorem mem_written {c : Char} (here : c ∈ (written texts).toList) :
    c = ',' ∨ ∃ text ∈ texts, c ∈ (escape false text).toList := by
  rw [toList_written] at here
  induction texts with
  | nil => simp at here
  | cons text texts ih =>
    cases texts with
    | nil => exact .inr ⟨text, List.mem_cons_self, by simpa using here⟩
    | cons next texts =>
      rw [List.map_cons, List.map_cons, List.intercalate_cons_cons] at here
      rcases List.mem_append.1 here with front | back
      · rcases List.mem_append.1 front with inside | comma
        · exact .inr ⟨text, List.mem_cons_self, inside⟩
        · exact .inl (List.mem_singleton.1 comma)
      · rcases ih back with comma | ⟨other, later, inside⟩
        · exact .inl comma
        · exact .inr ⟨other, List.mem_cons_of_mem _ later, inside⟩

/-- Nothing that is written of values is trimmed away. -/
theorem trim_written (texts : List String) : Text.trim (written texts) = written texts := by
  refine Text.trim_of_visible fun c here => ?_
  rcases mem_written here with rfl | ⟨text, -, inside⟩
  · decide
  · exact bounds_of_mem_escape inside

theorem ofItem?_labelled {label value : List Char} (plain : '=' ∉ label)
    (read : (value.splitOn ',').mapM formDecode? = some texts) :
    Reading.ofItem? (label ++ '=' :: value) = some ⟨label, texts⟩ := by
  have cut : cut? '=' (label ++ '=' :: value) = some (label, value) :=
    cut?_eq_some_iff.2 ⟨rfl, plain⟩
  simp only [Reading.ofItem?, cut, Option.getD_some, read, Option.map_some]

theorem ofItem?_bare {label : List Char} (plain : '=' ∉ label)
    (read : (([] : List Char).splitOn ',').mapM formDecode? = some texts) :
    Reading.ofItem? label = some ⟨label, texts⟩ := by
  have cut : cut? '=' label = none := cut?_eq_none_iff.2 plain
  simp only [Reading.ofItem?, cut, Option.getD_none, read, Option.map_some]

/-- An item that holds no separator and is read as what was bound. -/
structure ItemReads (op : Operator) (item : String) (b : Binding) : Prop where
  unbroken : op.mark ∉ item.toList
  reading : ∃ r, Reading.ofItem? item.toList = some r ∧ r.Reads b

/-- The operators that write names keep reserved characters out of values. -/
theorem allowsReserved_of_isQualified (qualified : op.isQualified = true) :
    op.allowsReserved = false := by
  cases op <;> simp_all [Operator.isQualified, Operator.allowsReserved]

theorem mark_of_isQualified (qualified : op.isQualified = true) :
    isUnreserved op.mark = false ∧ op.mark ≠ '+' ∧ op.mark ≠ '%' ∧ op.mark ≠ ',' ∧ op.mark ≠ '=' := by
  cases op <;> simp only [Operator.isQualified, Bool.false_eq_true] at qualified <;> decide +kernel

theorem mark_not_mem_escape (qualified : op.isQualified = true) (text : String) :
    op.mark ∉ (escape false text).toList := by
  obtain ⟨reserved, plus, percent, -, -⟩ := mark_of_isQualified qualified
  exact not_mem_escape reserved plus percent

theorem mark_not_mem_written (qualified : op.isQualified = true) (texts : List String) :
    op.mark ∉ (written texts).toList := by
  intro here
  obtain ⟨-, -, -, comma, -⟩ := mark_of_isQualified qualified
  rcases mem_written here with same | ⟨text, -, inside⟩
  · exact comma same
  · exact mark_not_mem_escape qualified text inside

/-- A named item is read back, also where an empty value leaves the bare name. -/
theorem ofItem?_qualify (qualified : op.isQualified = true) (mark : op.mark ∉ name.toList)
    (equals : '=' ∉ name.toList) (solid : texts ≠ []) :
    ItemReads op (qualify op name (written texts)) ⟨.name name, texts⟩ := by
  have read := values_written solid
  obtain ⟨-, -, -, -, notEquals⟩ := mark_of_isQualified qualified
  unfold qualify
  rw [trim_written, qualified]
  simp only [Bool.not_true, Bool.false_eq_true, if_false]
  split
  · rename_i bare
    simp only [Bool.and_eq_true, String.isEmpty_iff] at bare
    rw [bare.2] at read
    exact ⟨mark, _, ofItem?_bare equals read, rfl, rfl⟩
  · refine ⟨?_, ⟨name.toList, texts⟩, ?_, rfl, rfl⟩
    · simp only [String.toList_append, List.mem_append, not_or]
      exact ⟨⟨mark, by simpa using notEquals⟩, mark_not_mem_written qualified texts⟩
    · rw [String.toList_append, String.toList_append, List.append_assoc]
      exact ofItem?_labelled equals read

/-- A pair of a map that is spread out is read back. -/
theorem ofItem?_pair (qualified : op.isQualified = true) (key value : String) :
    ItemReads op (escape false key ++ "=" ++ escape false value) ⟨.key key, [value]⟩ := by
  obtain ⟨-, -, -, -, notEquals⟩ := mark_of_isQualified qualified
  have equals : '=' ∉ (escape false key).toList :=
    not_mem_escape (by decide +kernel) (by decide) (by decide)
  have alone : written [value] = escape false value := String.intercalate_singleton
  have read : ((escape false value).toList.splitOn ',').mapM formDecode? = some [value] := by
    rw [← alone]
    exact values_written (List.cons_ne_nil _ _)
  refine ⟨?_, ⟨(escape false key).toList, [value]⟩, ?_, formDecode?_escape key, rfl⟩
  · simp only [String.toList_append, List.mem_append, not_or]
    exact ⟨⟨mark_not_mem_escape qualified key, by simpa using notEquals⟩,
      mark_not_mem_escape qualified value⟩
  · rw [String.toList_append, String.toList_append, List.append_assoc]
    exact ofItem?_labelled equals read

/-- A name that can be read back keeps clear of what separates items and labels. -/
def Operator.Admits (op : Operator) (v : Variable) : Prop :=
  op.mark ∉ v.name.toList ∧ '=' ∉ v.name.toList

instance (op : Operator) (v : Variable) : Decidable (op.Admits v) :=
  inferInstanceAs (Decidable (_ ∧ _))

/-- The items of a variable are read back as its bindings. -/
theorem reads_items {value : Value} (qualified : op.isQualified = true) (admits : op.Admits v)
    (defined : value.isUndefined = false) :
    List.Forall₂ (ItemReads op) (items op v value) (v.bindings value) := by
  have named : ∀ {texts}, texts ≠ [] →
      ItemReads op (qualify op v.name (written texts)) ⟨.name v.name, texts⟩ :=
    fun solid => ofItem?_qualify qualified admits.1 admits.2 solid
  have single : ∀ text, ItemReads op (qualify op v.name (escape false text)) ⟨.name v.name, [text]⟩ := by
    intro text
    have alone : written [text] = escape false text := String.intercalate_singleton
    rw [← alone]
    exact named (List.cons_ne_nil _ _)
  cases value with
  | scalar text =>
    simp only [items, Variable.bindings, allowsReserved_of_isQualified qualified]
    exact .cons (single _) .nil
  | list texts =>
    simp only [items, Variable.bindings, allowsReserved_of_isQualified qualified]
    split
    · rw [List.map_map, List.forall₂_map_left_iff, List.forall₂_map_right_iff, List.forall₂_same]
      exact fun text _ => single _
    · have solid : texts.map (truncate v.maxLength) ≠ [] := by
        simpa [Value.isUndefined] using defined
      have joined := named solid
      rw [written, List.map_map] at joined
      exact .cons joined .nil
  | map pairs =>
    simp only [items, Variable.bindings, allowsReserved_of_isQualified qualified]
    split
    · rw [List.forall₂_map_left_iff, List.forall₂_map_right_iff, List.forall₂_same]
      exact fun pair _ => ofItem?_pair qualified pair.1 pair.2
    · have solid : pairs.flatMap (fun (key, value) => [key, value]) ≠ [] := by
        cases pairs with
        | nil => simp [Value.isUndefined] at defined
        | cons pair pairs => simp
      have joined := named solid
      rw [written, List.map_flatMap] at joined
      exact .cons joined .nil

end ItemLemmas

/-! ## Expansions -/

section ExpansionLemmas

variable {e : Expression} {lookup : Lookup} {names : NameMatch}

/-- The items of all variables are read back as what they bind. -/
theorem reads_allItems (qualified : e.operator.isQualified = true)
    (admits : ∀ v ∈ e.vars, e.operator.Admits v) (lookup : Lookup) (names : NameMatch) :
    List.Forall₂ (ItemReads e.operator) (e.allItems lookup names) (e.bindings lookup names) := by
  unfold Expression.allItems Expression.bindings
  generalize e.operator = op at qualified admits ⊢
  generalize e.vars = vars at admits ⊢
  induction vars with
  | nil => exact .nil
  | cons v vars ih =>
    have onward := ih fun w later => admits w (List.mem_cons_of_mem _ later)
    rw [List.flatMap_cons, List.flatMap_cons]
    cases value : definedValue lookup names v with
    | none => exact onward
    | some value =>
      have defined := Expression.isUndefined_of_definedValue value
      exact List.rel_append (reads_items qualified (admits v List.mem_cons_self) defined) onward

/-- Items that are read one by one are read as a row. -/
theorem mapM_ofItem? {op : Operator} {texts : List String} {bs : List Binding}
    (reads : List.Forall₂ (ItemReads op) texts bs) :
    ∃ readings, (texts.map String.toList).mapM Reading.ofItem? = some readings ∧
      List.Forall₂ Reading.Reads readings bs := by
  induction reads with
  | nil => exact ⟨[], rfl, .nil⟩
  | cons first _ ih =>
    obtain ⟨reading, read, same⟩ := first.reading
    obtain ⟨readings, later, all⟩ := ih
    exact ⟨reading :: readings, by simp [read, later], .cons same all⟩

theorem readBack?_items (qualified : e.operator.isQualified = true)
    (admits : ∀ v ∈ e.vars, e.operator.Admits v) (some_ : e.allItems lookup names ≠ []) :
    ∃ readings,
      readBack? e.operator (e.operator.separator.intercalate (e.allItems lookup names)) =
        some readings ∧ List.Forall₂ Reading.Reads readings (e.bindings lookup names) := by
  have reads := reads_allItems qualified admits lookup names
  have unbroken : ∀ item ∈ e.allItems lookup names, e.operator.mark ∉ item.toList :=
    ((List.forall₂_and_left _ _).1 (reads.imp fun _ _ h => ⟨h.unbroken, h⟩)).1
  rw [readBack?, String.toList_intercalate, toList_separator,
    List.splitOn_intercalate _ (by simpa using unbroken) (by simpa using some_)]
  exact mapM_ofItem? reads

theorem length_bindings (op : Operator) (v : Variable) (value : Value) :
    (v.bindings value).length = (items op v value).length := by
  cases value with
  | scalar text => rfl
  | list texts =>
    rw [items, Variable.bindings]
    split <;> simp
  | map pairs =>
    rw [items, Variable.bindings]
    split <;> simp

theorem bindings_ne_nil {v : Variable} {value : Value} (defined : value.isUndefined = false) :
    v.bindings value ≠ [] := by
  intro none
  have length := length_bindings .query v value
  rw [none] at length
  exact Expression.items_ne_nil defined (List.eq_nil_of_length_eq_zero length.symm)

/-- There are items exactly when a variable is defined. -/
theorem bindings_eq_nil_iff :
    e.bindings lookup names = [] ↔ ∀ v ∈ e.vars, definedValue lookup names v = none := by
  rw [Expression.bindings, List.flatMap_eq_nil_iff]
  refine forall₂_congr fun v _ => ?_
  cases value : definedValue lookup names v with
  | none => simp
  | some value =>
    simpa using bindings_ne_nil (Expression.isUndefined_of_definedValue value)

theorem lead_length (qualified : e.operator.isQualified = true) : e.operator.lead.length = 1 := by
  revert qualified
  cases e.operator <;> decide

/-- What an expansion comes to: nothing, or a lead and a row of items that is read back. -/
theorem expand_cases (qualified : e.operator.isQualified = true)
    (admits : ∀ v ∈ e.vars, e.operator.Admits v) (lookup : Lookup) (names : NameMatch) :
    (e.bindings lookup names = [] ∧ e.expand lookup names = "") ∨
      (e.bindings lookup names ≠ [] ∧ ∃ body readings,
        e.expand lookup names = e.operator.lead ++ body ∧
        readBack? e.operator body = some readings ∧
        List.Forall₂ Reading.Reads readings (e.bindings lookup names)) := by
  have reads := reads_allItems qualified admits lookup names
  cases all : e.allItems lookup names with
  | nil =>
    rw [all] at reads
    refine .inl ⟨List.forall₂_nil_left_iff.1 reads, ?_⟩
    rw [Expression.expand, all]
  | cons first others =>
    have some_ : e.allItems lookup names ≠ [] := by simp [all]
    obtain ⟨readings, read, same⟩ := readBack?_items qualified admits some_
    refine .inr ⟨fun none => ?_, _, readings, ?_, read, same⟩
    · rw [none] at reads
      exact some_ (List.forall₂_nil_right_iff.1 reads)
    · rw [Expression.expand_eq_render, Expression.render_of_ne_nil some_]

end ExpansionLemmas

/-- Bindings with the same values whose labels can be written alike. -/
structure Binding.Alike (b b' : Binding) : Prop where
  label : ∃ written, b.label.Spelled written ∧ b'.label.Spelled written
  values : b.values = b'.values

theorem alike_of_reads {readings : List Reading} {bs bs' : List Binding}
    (reads : List.Forall₂ Reading.Reads readings bs)
    (reads' : List.Forall₂ Reading.Reads readings bs') : List.Forall₂ Binding.Alike bs bs' := by
  induction reads generalizing bs' with
  | nil =>
    cases reads' with
    | nil => exact .nil
  | @cons reading b readings bs first _ ih =>
    cases reads' with
    | cons first' later' =>
      exact .cons ⟨⟨reading.label, first.label, first'.label⟩, first.values.symm.trans first'.values⟩
        (ih later')

/-- An expansion of an operator that writes names is read back as what the defined variables bind, in
order and with nothing else; it is empty only if none is defined. So parameters that expand alike bind
alike. -/
theorem expand_reads_back {e : Expression} (qualified : e.operator.isQualified = true)
    (admits : ∀ v ∈ e.vars, e.operator.Admits v) (lookup : Lookup) (names : NameMatch) :
    ((∀ v ∈ e.vars, definedValue lookup names v = none) → e.expand lookup names = "") ∧
    ((∃ v ∈ e.vars, definedValue lookup names v ≠ none) → ∃ body readings,
      e.expand lookup names = e.operator.lead ++ body ∧ e.operator.lead.length = 1 ∧
      readBack? e.operator body = some readings ∧
      List.Forall₂ Reading.Reads readings (e.bindings lookup names)) ∧
    ∀ lookup' names', e.expand lookup names = e.expand lookup' names' →
      List.Forall₂ Binding.Alike (e.bindings lookup names) (e.bindings lookup' names') := by
  have width := lead_length qualified
  refine ⟨fun none => ?_, fun ⟨v, here, defined⟩ => ?_, fun lookup' names' same => ?_⟩
  · rcases expand_cases qualified admits lookup names with ⟨-, empty⟩ | ⟨some_, -⟩
    · exact empty
    · exact absurd (bindings_eq_nil_iff.2 none) some_
  · rcases expand_cases qualified admits lookup names with ⟨none, -⟩ | ⟨-, body, readings, is, read, all⟩
    · exact absurd (bindings_eq_nil_iff.1 none v here) defined
    · exact ⟨body, readings, is, width, read, all⟩
  · -- An expansion that is not empty has its lead, so both are empty or neither is.
    have leads : ∀ body : String, e.operator.lead ++ body ≠ "" := by
      intro body none
      have length := congrArg String.length none
      simp only [String.length_append, String.length_empty] at length
      omega
    rcases expand_cases qualified admits lookup names with ⟨none, empty⟩ | ⟨-, body, readings, is, read, all⟩
      <;> rcases expand_cases qualified admits lookup' names' with
        ⟨none', empty'⟩ | ⟨-, body', readings', is', read', all'⟩
    · rw [none, none']
      exact .nil
    · exact absurd (is'.symm.trans (same.symm.trans empty)) (leads body')
    · exact absurd (is.symm.trans (same.trans empty')) (leads body)
    · have bodies : body = body' := by
        rw [is, is'] at same
        exact String.append_right_inj _ |>.1 same
      subst bodies
      obtain rfl := Option.some.inj (read.symm.trans read')
      exact alike_of_reads all all'

/-- A cut scalar, a list with an empty item, a map that is spread out, and a variable without value. -/
def sampleVars : List Variable :=
  [⟨"q", some 3, false⟩, ⟨"none", none, false⟩, ⟨"tags", some 1, true⟩, ⟨"m", some 1, true⟩]

/-- Values that hold every mark that reading cuts at. -/
def sampleLookup : Lookup := fun _ name =>
  if name = "q" then some (.scalar "é&=x")
  else if name = "tags" then some (.list ["", ",+"])
  else if name = "m" then some (.map [("a=b", "c;d"), ("", "")])
  else none

theorem expand_reads_back_sample :
    Operator.isQualified .pathParameter = true ∧
      (∀ v ∈ sampleVars, Operator.Admits .pathParameter v) ∧
      (Expression.mk .pathParameter sampleVars).expand sampleLookup .exact =
        ";q=%C3%A9%26%3D;tags;tags=%2C;a%3Db=c%3Bd;=" ∧
      ∃ body readings,
        (Expression.mk .pathParameter sampleVars).expand sampleLookup .exact = ";" ++ body ∧
        readBack? .pathParameter body = some readings ∧ List.Forall₂ Reading.Reads readings [
          ⟨.name "q", ["é&="]⟩, ⟨.name "tags", [""]⟩, ⟨.name "tags", [","]⟩,
          ⟨.key "a=b", ["c;d"]⟩, ⟨.key "", [""]⟩] := by
  have admits : ∀ v ∈ sampleVars, Operator.Admits .pathParameter v := by decide +kernel
  obtain ⟨-, read, -⟩ := expand_reads_back (e := ⟨.pathParameter, sampleVars⟩) rfl admits sampleLookup .exact
  obtain ⟨body, readings, is, -, back, all⟩ :=
    read ⟨⟨"q", some 3, false⟩, by decide, by decide +kernel⟩
  exact ⟨rfl, admits, by decide +kernel, body, readings, is, back, all⟩

end HttpForms.Template
