import HttpForms.Proofs.Template.Assignments
import HttpForms.Template.Basic
import HttpForms.Template.Parameters

/-!
# Two ways to take values from a document

A template finds its values in a JSON document itself or in the parameters taken from it. The two ways
differ in their order: the document is searched first and the member that is found is converted then,
while the parameters hold converted members only and are searched after that. So they answer alike
unless the search of the document ends at a member without a value while a later member has one. Names
of an object are distinct, so this takes names that differ in case only.

Results:

1. `lookup_valued_iff` — for one name the two ways agree exactly if no member is hidden;
2. `not_hidden_exact` — none is hidden from a search for exact names;
3. `expand_document` — templates that ask for no hidden member expand alike;
4. `null_hides_value` — a null does hide a value from a search that ignores case.
-/

namespace HttpForms

namespace Template

/-! ## Members that have a value -/

/-- The members that have a value, with their values. -/
def valued (members : List (String × Json)) : List (String × Value) :=
  members.filterMap fun (name, member) => (Value.ofJson? member).map fun value => (name, value)

/-- A search for `name` ends at a member without a value, and a later member would have given one. -/
inductive Hidden (names : NameMatch) (name : String) : List (String × Json) → Prop
  | here {key : String} {member : Json} {rest : List (String × Json)} :
      names.test key name = true → Value.ofJson? member = none →
      (∃ entry ∈ rest, names.test entry.1 name = true ∧ Value.ofJson? entry.2 ≠ none) →
      Hidden names name ((key, member) :: rest)
  | later {key : String} {member : Json} {rest : List (String × Json)} :
      names.test key name = false → Hidden names name rest →
      Hidden names name ((key, member) :: rest)

section LookupLemmas

variable {names : NameMatch} {name key : String} {member : Json} {value : Value}
  {members rest : List (String × Json)}

theorem keys_valued_sublist (members : List (String × Json)) :
    List.Sublist ((valued members).map Prod.fst) (members.map Prod.fst) := by
  induction members with
  | nil => exact List.Sublist.refl _
  | cons entry rest ih =>
    obtain ⟨key, member⟩ := entry
    cases converted : Value.ofJson? member with
    | none => simpa [valued, converted] using ih.cons key
    | some value => simpa [valued, converted] using ih.cons_cons key

/-- The parameters taken from an object are its members that have a value. -/
theorem Parameters.ofJson_ofMembers (members : List (String × Json)) :
    Parameters.ofJson (Json.ofMembers members) = .ok ⟨valued (Entries.ofList members)⟩ := by
  have distinct : ((valued (Entries.ofList members)).map Prod.fst).Nodup :=
    (Entries.nodup_ofList members).sublist (keys_valued_sublist _)
  have entries := Parameters.ofList_entries (valued (Entries.ofList members))
  rw [Entries.ofList_of_nodup distinct] at entries
  exact congrArg Except.ok (congrArg Parameters.mk entries)

theorem lookup_of_differs (differs : names.test key name = false) :
    (Parameters.mk (valued ((key, member) :: rest))).lookup names name =
      (Parameters.mk (valued rest)).lookup names name := by
  cases converted : Value.ofJson? member <;>
    simp [Parameters.lookup, valued, converted, differs]

theorem lookup_of_value (same : names.test key name = true)
    (converted : Value.ofJson? member = some value) :
    (Parameters.mk (valued ((key, member) :: rest))).lookup names name = some value := by
  simp [Parameters.lookup, valued, converted, same]

theorem lookup_of_none (converted : Value.ofJson? member = none) :
    (Parameters.mk (valued ((key, member) :: rest))).lookup names name =
      (Parameters.mk (valued rest)).lookup names name := by
  simp [Parameters.lookup, valued, converted]

theorem lookup_eq_none_iff :
    (Parameters.mk (valued members)).lookup names name = none ↔
      ∀ entry ∈ members, names.test entry.1 name = true → Value.ofJson? entry.2 = none := by
  induction members with
  | nil => simp [Parameters.lookup, valued]
  | cons entry rest ih =>
    obtain ⟨key, member⟩ := entry
    rw [List.forall_mem_cons]
    cases same : names.test key name with
    | false => simp [lookup_of_differs same, ih]
    | true =>
      cases converted : Value.ofJson? member with
      | none => simp [lookup_of_none converted, ih]
      | some value => simp [lookup_of_value same converted]

/-- For one name the two ways agree exactly if no member is hidden. -/
theorem lookup_valued_iff :
    (Parameters.mk (valued members)).lookup names name = ofDocument (.object members) names name ↔
      ¬ Hidden names name members := by
  induction members with
  | nil =>
    constructor
    · rintro - ⟨⟩
    · intro _
      rfl
  | cons entry rest ih =>
    obtain ⟨key, member⟩ := entry
    cases same : names.test key name with
    | false =>
      have search : ofDocument (.object ((key, member) :: rest)) names name =
          ofDocument (.object rest) names name := by
        simp [ofDocument, same]
      rw [lookup_of_differs same, search, ih]
      refine not_congr ⟨.later same, ?_⟩
      rintro (⟨same', -, -⟩ | ⟨-, hidden⟩)
      · rw [same] at same'
        cases same'
      · exact hidden
    | true =>
      have search : ofDocument (.object ((key, member) :: rest)) names name =
          Value.ofJson? member := by
        simp [ofDocument, same]
      rw [search]
      cases converted : Value.ofJson? member with
      | some value =>
        refine ⟨fun _ => ?_, fun _ => lookup_of_value same converted⟩
        rintro (⟨-, none_, -⟩ | ⟨differs, -⟩)
        · rw [converted] at none_
          cases none_
        · rw [same] at differs
          cases differs
      | none =>
        rw [lookup_of_none converted, lookup_eq_none_iff]
        constructor
        · rintro none_ (⟨-, -, entry, mem, same', value⟩ | ⟨differs, -⟩)
          · exact value (none_ entry mem same')
          · rw [same] at differs
            cases differs
        · intro open_ entry mem same'
          by_contra value
          exact open_ (.here same converted ⟨entry, mem, same', value⟩)

/-- Nothing is hidden from a search for exact names where names are distinct. -/
theorem not_hidden_exact (distinct : (members.map Prod.fst).Nodup) : ¬ Hidden .exact name members := by
  intro hidden
  induction hidden with
  | here same none_ later =>
    obtain ⟨entry, mem, same', -⟩ := later
    have keys := (beq_iff_eq.1 same).trans (beq_iff_eq.1 same').symm
    exact (List.nodup_cons.1 distinct).1 (List.mem_map.2 ⟨entry, mem, keys.symm⟩)
  | later _ _ ih => exact ih (List.nodup_cons.1 distinct).2

end LookupLemmas

/-! ## Expansions -/

/-- An expansion depends on the answers for the variables alone. -/
theorem expand_congr {t : UriTemplate} {one other : Lookup}
    (alike : ∀ v ∈ t.segments.flatMap Segment.vars, one t.names v.name = other t.names v.name) :
    t.expand one = t.expand other := by
  rw [UriTemplate.expand, UriTemplate.expand]
  congr 1
  refine List.map_congr_left fun segment mem => ?_
  cases segment with
  | constant => rfl
  | expression e =>
    have items : e.allItems one t.names = e.allItems other t.names := by
      refine List.flatMap_congr fun v mem' => ?_
      rw [Expression.definedValue, Expression.definedValue,
        alike v (List.mem_flatMap.2 ⟨_, mem, mem'⟩)]
    rw [Segment.expand, Segment.expand, Expression.expand, Expression.expand, items]

/-- Every object gives parameters. They answer for a name as the object itself does exactly if no
member is hidden from the search for it; none is hidden from a search for exact names; and a template
none of whose variables asks for a hidden member expands alike. -/
theorem expand_document (members : List (String × Json)) :
    ∃ p, Parameters.ofJson (Json.ofMembers members) = .ok p ∧
      (∀ names name, p.lookup names name = ofDocument (Json.ofMembers members) names name ↔
        ¬ Hidden names name (Entries.ofList members)) ∧
      (∀ name, ¬ Hidden .exact name (Entries.ofList members)) ∧
      ∀ t : UriTemplate, (∀ v ∈ t.segments.flatMap Segment.vars,
          ¬ Hidden t.names v.name (Entries.ofList members)) →
        t.expand p.lookup = t.expand (ofDocument (Json.ofMembers members)) := by
  refine ⟨_, Parameters.ofJson_ofMembers members, fun names name => lookup_valued_iff,
    fun name => not_hidden_exact (Entries.nodup_ofList members), fun t open_ => ?_⟩
  exact expand_congr fun v mem => lookup_valued_iff.2 (open_ v mem)

/-- An object whose null stands alone expands alike in both ways. -/
theorem expand_document_sample :
    ∃ p, Parameters.ofJson (Json.ofMembers [("A", .string "x"), ("b", .null)]) = .ok p ∧
      (UriTemplate.compile "\x7ba,b\x7d" .ignoringCase).expand p.lookup =
        (UriTemplate.compile "\x7ba,b\x7d" .ignoringCase).expand
          (ofDocument (Json.ofMembers [("A", .string "x"), ("b", .null)])) := by
  obtain ⟨p, taken, agree, -, alike⟩ := expand_document [("A", .string "x"), ("b", .null)]
  obtain rfl : p = ⟨[("A", .scalar "x")]⟩ := (Except.ok.inj taken).symm
  refine ⟨_, taken, alike _ fun v mem => (agree _ _).1 ?_⟩
  revert v
  decide +kernel

/-- A null does hide a value from a search that ignores case: the parameters have the value and the
object does not. -/
theorem null_hides_value :
    ∃ p, Parameters.ofJson (Json.ofMembers [("A", .null), ("a", .string "x")]) = .ok p ∧
      (UriTemplate.compile "\x7ba\x7d" .ignoringCase).expand p.lookup = "x" ∧
      (UriTemplate.compile "\x7ba\x7d" .ignoringCase).expand
        (ofDocument (Json.ofMembers [("A", .null), ("a", .string "x")])) = "" :=
  ⟨⟨[("a", .scalar "x")]⟩, by rfl, by decide +kernel, by decide +kernel⟩

end Template

end HttpForms
