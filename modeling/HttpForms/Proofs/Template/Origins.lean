import HttpForms.Proofs.Template.Escape
import HttpForms.Proofs.Template.Segments
import HttpForms.Proofs.Text.Blank

/-!
# Where the text of an expansion comes from

Everything in an expansion was either in the template or is a text of a value, escaped. The template
gives literal text, names, and the marks of its operators, among them the comma and the equals sign;
the values give all else. So no value can bring a character into a URI that escaping does not write,
and escaping writes visible ASCII only. Where no reserved characters are allowed it writes even less:
unreserved characters, plus signs and whole triplets, which stand for whole UTF-8 sequences.

Results:

1. `tame_escape` — what is written of a value where no reserved characters are allowed;
2. `composed_expand` — an expansion is composed of marks and names, and of the texts of its values;
3. `isVisible_of_mem_expand` — a visible template has visible expansions;
4. `expand_confined` — all three together, for every template and every expression.
-/

namespace HttpForms.Template

open Expression (qualify items definedValue)

/-! ## What is written of a value -/

/-- Visible ASCII: no space, no control, nothing beyond ASCII. -/
def IsVisible (c : Char) : Prop :=
  0x21 ≤ c.toNat ∧ c.toNat ≤ 0x7E

instance (c : Char) : Decidable (IsVisible c) :=
  inferInstanceAs (Decidable (_ ∧ _))

-- Deciding the quantifier itself may run through every character there is.
theorem isVisible_of_all {cs : List Char} (all : cs.all (IsVisible ·) = true) :
    ∀ c ∈ cs, IsVisible c :=
  fun c here => of_decide_eq_true (List.all_eq_true.1 all c here)

/-- The digits of triplets. -/
def isUpperHex (c : Char) : Bool :=
  "0123456789ABCDEF".toList.contains c

/-- Unreserved characters, plus signs and whole triplets. -/
inductive Spelling : List Char → Prop
  | nil : Spelling []
  | plain {c : Char} {rest : List Char} :
      isUnreserved c = true ∨ c = '+' → Spelling rest → Spelling (c :: rest)
  | triplet {high low : Char} {rest : List Char} :
      isUpperHex high = true → isUpperHex low = true → Spelling rest →
      Spelling ('%' :: high :: low :: rest)

/-- A text that can stand in a URI without a meaning there: nothing reserved, and triplets that
decode to well-formed UTF-8. -/
structure Tame (cs : List Char) : Prop where
  spelling : Spelling cs
  utf8 : ∃ text, Utf8.decode? (Percent.decode (Utf8.encodeChars cs)) = some text

section Escaping

variable {c : Char} {cs ds : List Char} {value : String}

theorem Spelling.append (one : Spelling cs) (other : Spelling ds) : Spelling (cs ++ ds) := by
  induction one with
  | nil => exact other
  | plain kept _ ih => exact .plain kept ih
  | triplet high low _ ih => exact .triplet high low ih

theorem spelling_flatMap {α : Type} {write : α → List Char} (each : ∀ a, Spelling (write a))
    (as : List α) : Spelling (as.flatMap write) := by
  induction as with
  | nil => exact .nil
  | cons a as ih =>
    rw [List.flatMap_cons]
    exact (each a).append ih

theorem spelling_triplet (b : UInt8) : Spelling (Percent.triplet b) := by
  have digit : ∀ n : Fin 16, isUpperHex (Percent.hexDigit n) = true := by decide +kernel
  have bound := b.toNat_lt
  exact .triplet (digit ⟨b.toNat / 16, by omega⟩) (digit ⟨b.toNat % 16, by omega⟩) .nil

theorem spelling_escapeChar (c : Char) : Spelling (escapeChar isUnreserved c) := by
  unfold escapeChar
  split
  · exact .plain (.inr rfl) .nil
  split
  · rename_i kept
    exact .plain (.inl kept) .nil
  · exact spelling_flatMap spelling_triplet _

/-- Where no reserved characters are allowed, what is written of a value has no meaning in a URI. -/
theorem tame_escape (value : String) : Tame (escape false value).toList where
  spelling := by
    rw [toList_escape]
    exact spelling_flatMap spelling_escapeChar value.toList
  utf8 := by
    -- Decoding alone leaves the plus signs that stand for spaces.
    have octets := decode_escape id (fun _ _ => rfl) (by decide) (by decide) value
    rw [List.map_id] at octets
    refine ⟨String.ofList (value.toList.map fun c => if c == ' ' then '+' else c), ?_⟩
    rw [octets, ← Utf8.decode?_encode, Utf8.encode, String.toList_ofList]
    rfl

theorem isVisible_of_isPrintableAscii (printable : isPrintableAscii c = true) : IsVisible c := by
  simp only [isPrintableAscii, Bool.and_eq_true, decide_eq_true_eq, Char.le_def,
    UInt32.le_iff_toNat_le] at printable
  have number : c.val.toNat = c.toNat := rfl
  have ends : ('!'.val.toNat, '~'.val.toNat) = (0x21, 0x7E) := by decide
  simp only [Prod.mk.injEq] at ends
  unfold IsVisible
  omega

/-- Whatever an operator lets stand, only visible characters are written. -/
theorem isVisible_of_mem_escape {reserved : Bool} (here : c ∈ (escape reserved value).toList) :
    IsVisible c := by
  cases reserved with
  | false => exact bounds_of_mem_escape here
  | true =>
    simp only [escape, String.toList_ofList, List.mem_flatMap] at here
    obtain ⟨d, -, inside⟩ := here
    rcases mem_escapeChar_of_keep inside with kept | rfl | rfl | letter
    · exact isVisible_of_isPrintableAscii kept
    · exact by decide
    · exact by decide
    · exact bounds_of_isUnreserved (isUnreserved_of_isAlphanumeric letter)

end Escaping

/-! ## What an expansion is composed of -/

/-- The texts of a value, as many characters of each as the variable takes. Maps are never cut. -/
def Variable.texts (v : Variable) : Value → List String
  | .scalar text => [truncate v.maxLength text]
  | .list texts => texts.map (truncate v.maxLength)
  | .map pairs => pairs.flatMap fun (key, value) => [key, value]

/-- The texts of all defined variables of an expression in order. -/
def Expression.texts (e : Expression) (lookup : Lookup) (names : NameMatch) : List String :=
  e.vars.flatMap fun v =>
    match definedValue lookup names v with
    | some value => v.texts value
    | none => []

/-- `Composed op names texts written`: what is written are the texts in their order, each of them
escaped, and around them nothing but marks of the operator and names. -/
inductive Composed (op : Operator) (names : List String) : List String → String → Prop
  | nothing : Composed op names [] ""
  | text {texts : List String} {rest : String} (text : String) :
      Composed op names texts rest →
      Composed op names (text :: texts) (escape op.allowsReserved text ++ rest)
  | mark {texts : List String} {rest mark : String} :
      mark ∈ [op.lead, op.separator, ",", "="] → Composed op names texts rest →
      Composed op names texts (mark ++ rest)
  | name {texts : List String} {rest name : String} :
      name ∈ names → Composed op names texts rest → Composed op names texts (name ++ rest)

section Composition

variable {op : Operator} {names more texts others : List String}
  {written other mark name separator : String} {v : Variable}

theorem Composed.append (one : Composed op names texts written)
    (next : Composed op names others other) :
    Composed op names (texts ++ others) (written ++ other) := by
  induction one with
  | nothing => simpa using next
  | text text _ ih =>
    rw [String.append_assoc]
    exact .text text ih
  | mark here _ ih =>
    rw [String.append_assoc]
    exact .mark here ih
  | name here _ ih =>
    rw [String.append_assoc]
    exact .name here ih

theorem Composed.mono (sub : names ⊆ more) (composed : Composed op names texts written) :
    Composed op more texts written := by
  induction composed with
  | nothing => exact .nothing
  | text text _ ih => exact .text text ih
  | mark here _ ih => exact .mark here ih
  | name here _ ih => exact .name (sub here) ih

theorem composed_text (op : Operator) (names : List String) (text : String) :
    Composed op names [text] (escape op.allowsReserved text) := by
  have alone : Composed op names [text] (escape op.allowsReserved text ++ "") := .text text .nothing
  rwa [String.append_empty] at alone

theorem composed_name (here : name ∈ names) : Composed op names [] name := by
  have alone : Composed op names [] (name ++ "") := .name here .nothing
  rwa [String.append_empty] at alone

/-- Items that are composed each are composed when they are joined by a mark. -/
theorem composed_intercalate {rows : List (List String)} {parts : List String}
    (here : separator ∈ [op.lead, op.separator, ",", "="])
    (composed : List.Forall₂ (Composed op names) rows parts) :
    Composed op names rows.flatten (separator.intercalate parts) := by
  induction composed with
  | nil => exact .nothing
  | @cons row part rows parts first later ih =>
    rw [List.flatten_cons]
    cases later with
    | nil => simpa using first
    | cons second rest =>
      rw [String.intercalate_cons_cons, String.append_assoc]
      exact first.append (.mark here ih)

theorem isVisible_of_mem_mark (here : mark ∈ [op.lead, op.separator, ",", "="]) :
    ∀ c ∈ mark.toList, IsVisible c := by
  have all : ∀ mark ∈ [op.lead, op.separator, ",", "="], mark.toList.all (IsVisible ·) = true := by
    cases op <;> decide +kernel
  exact isVisible_of_all (all mark here)

/-- What is composed of visible names is visible. -/
theorem isVisible_of_composed (visible : ∀ name ∈ names, ∀ c ∈ name.toList, IsVisible c)
    (composed : Composed op names texts written) : ∀ c ∈ written.toList, IsVisible c := by
  induction composed with
  | nothing => simp
  | text text _ ih =>
    rw [String.toList_append, List.forall_mem_append]
    exact ⟨fun c inside => isVisible_of_mem_escape inside, ih⟩
  | @mark _ _ mark here _ ih =>
    rw [String.toList_append, List.forall_mem_append]
    exact ⟨isVisible_of_mem_mark here, ih⟩
  | name here _ ih =>
    rw [String.toList_append, List.forall_mem_append]
    exact ⟨visible _ here, ih⟩

/-- A named value is composed as the value is. The name stands alone only where nothing is written of
the value: a blank is never written. -/
theorem composed_qualify (here : v.name ∈ names) (composed : Composed op [] texts written) :
    Composed op names texts (qualify op v.name written) := by
  have inside : Composed op names texts written := composed.mono (List.nil_subset names)
  have solid : Text.trim written = written :=
    Text.trim_of_visible (isVisible_of_composed (by simp) composed)
  unfold qualify
  rw [solid]
  split
  · exact inside
  split
  · rename_i bare
    simp only [Bool.and_eq_true, String.isEmpty_iff] at bare
    rw [bare.2] at inside
    simpa using (composed_name here).append inside
  · rw [String.append_assoc]
    exact .name here (.mark (by simp) inside)

/-- The items of a variable are composed of its texts, each item of its own. -/
theorem exists_rows_items (op : Operator) (here : v.name ∈ names) (value : Value) :
    ∃ rows : List (List String), rows.flatten = v.texts value ∧
      List.Forall₂ (Composed op names) rows (items op v value) := by
  have joined : ∀ texts : List String,
      Composed op [] texts (",".intercalate (texts.map (escape op.allowsReserved))) := by
    intro texts
    have each : List.Forall₂ (Composed op []) (texts.map fun text => [text])
        (texts.map (escape op.allowsReserved)) := by
      rw [List.forall₂_map_left_iff, List.forall₂_map_right_iff, List.forall₂_same]
      exact fun text _ => composed_text op [] text
    have comma : "," ∈ [op.lead, op.separator, ",", "="] := by simp
    have row := composed_intercalate comma each
    rwa [← List.flatMap_def, List.flatMap_singleton'] at row
  cases value with
  | scalar text => exact ⟨[_], rfl, .cons (composed_qualify here (composed_text op [] _)) .nil⟩
  | list texts =>
    rw [items]
    split
    · refine ⟨texts.map fun text => [truncate v.maxLength text], List.map_eq_flatMap.symm, ?_⟩
      rw [List.map_map, List.forall₂_map_left_iff, List.forall₂_map_right_iff, List.forall₂_same]
      exact fun text _ => composed_qualify here (composed_text op [] _)
    · have row := joined (texts.map (truncate v.maxLength))
      rw [List.map_map] at row
      exact ⟨[_], by simp [Variable.texts], .cons (composed_qualify here row) .nil⟩
  | map pairs =>
    rw [items]
    split
    · refine ⟨pairs.map fun (key, value) => [key, value], by simp [Variable.texts, List.flatMap], ?_⟩
      rw [List.forall₂_map_left_iff, List.forall₂_map_right_iff, List.forall₂_same]
      rintro ⟨key, value⟩ -
      show Composed op names [key, value]
        (escape op.allowsReserved key ++ "=" ++ escape op.allowsReserved value)
      rw [String.append_assoc]
      exact (composed_text op names key).append (.mark (by simp) (composed_text op names value))
    · have row := joined (pairs.flatMap fun (key, value) => [key, value])
      rw [List.map_flatMap] at row
      exact ⟨[_], by simp [Variable.texts], .cons (composed_qualify here row) .nil⟩

/-- So are the items of all variables. -/
theorem exists_rows_allItems (op : Operator) {vars : List Variable}
    (here : ∀ v ∈ vars, v.name ∈ names) (lookup : Lookup) (match_ : NameMatch) :
    ∃ rows : List (List String), rows.flatten = (Expression.mk op vars).texts lookup match_ ∧
      List.Forall₂ (Composed op names) rows ((Expression.mk op vars).allItems lookup match_) := by
  induction vars with
  | nil => exact ⟨[], rfl, .nil⟩
  | cons v vars ih =>
    obtain ⟨rows, texts, composed⟩ := ih fun w later => here w (List.mem_cons_of_mem _ later)
    simp only [Expression.texts, Expression.allItems, List.flatMap_cons] at texts composed ⊢
    cases definedValue lookup match_ v with
    | none => exact ⟨rows, texts, composed⟩
    | some value =>
      obtain ⟨own, ownTexts, ownComposed⟩ := exists_rows_items op (here v List.mem_cons_self) value
      exact ⟨own ++ rows, by rw [List.flatten_append, ownTexts, texts],
        List.rel_append ownComposed composed⟩

/-- An expansion is composed of its texts. -/
theorem composed_expand (e : Expression) (lookup : Lookup) (names : NameMatch) :
    Composed e.operator (e.vars.map Variable.name) (e.texts lookup names) (e.expand lookup names) := by
  obtain ⟨rows, texts, composed⟩ := exists_rows_allItems e.operator
    (fun v mem => List.mem_map_of_mem (f := Variable.name) mem) lookup names
  rw [← texts, Expression.expand]
  cases all : e.allItems lookup names with
  | nil =>
    rw [all, List.forall₂_nil_right_iff] at composed
    rw [composed]
    exact .nothing
  | cons first others =>
    have lead : e.operator.lead ∈ [e.operator.lead, e.operator.separator, ",", "="] := by simp
    have separator : e.operator.separator ∈ [e.operator.lead, e.operator.separator, ",", "="] := by
      simp
    rw [all] at composed
    exact .mark lead (composed_intercalate separator composed)

end Composition

/-! ## Templates -/

section Templates

variable {text body : List Char} {segments : List Segment} {segment : Segment} {e : Expression}
  {v : Variable}

/-- The names of an expression stand in its body. -/
theorem name_subset_body (describes : Expression.Describes body e) (mem : v ∈ e.vars) :
    v.name.toList ⊆ body := by
  obtain ⟨parts, selects, -, -, spelled⟩ := describes
  obtain ⟨part, here, spells⟩ := Expression.exists_part spelled mem
  exact List.Subset.trans spells.name_subset
    (List.Subset.trans (Expression.subset_intercalate here) selects.subset)

/-- Literal text and names of a template stand in its text. -/
theorem subset_of_compiles (compiles : Compiles text segments) (mem : segment ∈ segments) :
    (∀ literal, segment = .constant literal → literal.toList ⊆ text) ∧
      ∀ v ∈ segment.vars, v.name.toList ⊆ text := by
  obtain ⟨spans, covers, rfl⟩ := compiles
  obtain ⟨span, here, rfl⟩ := List.mem_map.1 mem
  have within : span.source ⊆ text := by
    rw [← covers.sources_eq]
    exact fun c inside => List.mem_flatMap.2 ⟨span, here, inside⟩
  rcases (covers.sound span here).cases with ⟨literal, -, rfl⟩ | ⟨body, e, -, describes, rfl⟩
  · refine ⟨?_, by simp [Span.ofText, Segment.vars]⟩
    rintro _ ⟨⟩
    simpa [Span.ofText] using within
  · refine ⟨by simp [Span.ofBody], fun v mem' => ?_⟩
    have outer : body ⊆ braces body := fun c inside => by simp [braces, inside]
    exact List.Subset.trans (name_subset_body describes mem') (List.Subset.trans outer within)

/-- A visible template has visible expansions. -/
theorem isVisible_of_mem_expand {text : String} (visible : ∀ c ∈ text.toList, IsVisible c)
    (names : NameMatch) (lookup : Lookup) :
    ∀ c ∈ ((UriTemplate.compile text names).expand lookup).toList, IsVisible c := by
  intro c here
  rw [UriTemplate.expand, String.toList_join, List.flatMap_map] at here
  obtain ⟨segment, mem, inside⟩ := List.mem_flatMap.1 here
  obtain ⟨literals, written⟩ := subset_of_compiles (exists_covers text.toList) mem
  cases segment with
  | constant literal => exact visible c (literals literal rfl inside)
  | expression e =>
    refine isVisible_of_composed ?_ (composed_expand e lookup names) c inside
    rw [List.forall_mem_map]
    exact fun v mem' c inside' => visible c (written v mem' inside')

end Templates

/-- Values bring no character of their own into an expansion. A template of visible ASCII expands to
visible ASCII, whatever its values hold. In the expansion of any expression there is nothing but marks
of its operator, names of its variables and escaped texts of its values, in order; and where the
operator allows no reserved characters, what is written of a text has no meaning in a URI, wherever
the text was cut. -/
theorem expand_confined (names : NameMatch) (lookup : Lookup) :
    (∀ text : String, (∀ c ∈ text.toList, IsVisible c) →
      ∀ c ∈ ((UriTemplate.compile text names).expand lookup).toList, IsVisible c) ∧
    ∀ e : Expression,
      Composed e.operator (e.vars.map Variable.name) (e.texts lookup names) (e.expand lookup names) ∧
      (e.operator.allowsReserved = false → ∀ limit value,
        Tame (escape e.operator.allowsReserved (truncate limit value)).toList) := by
  refine ⟨fun text visible => isVisible_of_mem_expand visible names lookup, fun e => ?_⟩
  refine ⟨composed_expand e lookup names, fun strict limit value => ?_⟩
  rw [strict]
  exact tame_escape _

/-- Values that hold a line break, a space, a character that the cut comes right behind, and every
mark of the template. -/
def hostileLookup : Lookup := fun _ name =>
  if name = "q" then some (.scalar "é\r\nX: 1")
  else if name = "m" then some (.map [("a=b", "c&d"), (" ", "\x00")])
  else if name = "f" then some (.list ["#/?", "\u2028"])
  else none

theorem expand_confined_sample :
    (∀ c ∈ "/s\x7b?q:2,m*\x7d\x7b#f\x7d".toList, IsVisible c) ∧
    (∀ c ∈ ((UriTemplate.compile "/s\x7b?q:2,m*\x7d\x7b#f\x7d" .exact).expand hostileLookup).toList,
      IsVisible c) ∧
    (UriTemplate.compile "/s\x7b?q:2,m*\x7d\x7b#f\x7d" .exact).expand hostileLookup =
      "/s?q=%C3%A9%0D&a%3Db=c%26d&+=%00##/?,%E2%80%A8" ∧
    Operator.allowsReserved .query = false ∧
    Tame (escape false (truncate (some 2) "é\r\nX: 1")).toList := by
  obtain ⟨visible, composed⟩ := expand_confined .exact hostileLookup
  have template : ∀ c ∈ "/s\x7b?q:2,m*\x7d\x7b#f\x7d".toList, IsVisible c :=
    isVisible_of_all (by decide +kernel)
  exact ⟨template, visible _ template, by decide +kernel, rfl,
    (composed ⟨.query, []⟩).2 rfl (some 2) "é\r\nX: 1"⟩

end HttpForms.Template
