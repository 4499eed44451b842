import Mathlib.Data.List.Forall2
import HttpForms.Cut
import HttpForms.Template.Expression

/-!
# The grammar of expressions

What may stand between the braces of a template is said here without a reader. A body is an operator
and a row of specs with commas between them. A spec is a name, then a length if one is there, then a
star if one is there. Each of the three is settled from outside inwards: the star is taken off first,
so a length is looked for in what is left, and what is no length stays in the name.

Results:

1. `Variable.length?_eq_some_iff` — a length is a decimal number from one to below the bound;
2. `Variable.ofChars?_eq_some_iff` — a spec is read exactly as the grammar has it;
3. `Expression.ofChars?_eq_some_iff` — so is what stands between braces.
-/

namespace HttpForms

/-! ## Numerals -/

namespace Decimal

/-- Digits alone, at least one, that stand for `n`. Zeros may come first. -/
structure IsNumeral (digits : List Char) (n : Nat) : Prop where
  some_ : digits ≠ []
  digit : ∀ c ∈ digits, isDigit c = true
  value : valueOf digits = n

theorem ofDigits?_eq_some_iff {digits : List Char} {n : Nat} :
    ofDigits? digits = some n ↔ IsNumeral digits n := by
  rw [ofDigits?, Option.ite_none_right_eq_some, Bool.and_eq_true, Option.some.injEq]
  constructor
  · rintro ⟨⟨some_, digit⟩, value⟩
    exact ⟨by simpa using some_, by simpa using digit, value⟩
  · rintro ⟨some_, digit, value⟩
    exact ⟨⟨by simpa using some_, by simpa using digit⟩, value⟩

theorem IsNumeral.head_ne_plus {digits : List Char} {n : Nat} (is : IsNumeral digits n)
    (rest : List Char) : digits ≠ '+' :: rest := by
  rintro rfl
  exact absurd (is.digit '+' List.mem_cons_self) (by decide)

end Decimal

namespace Template

/-! ## One variable -/

namespace Variable

open Decimal (IsNumeral)

/-- A number that cuts a value: from one to below the bound, after an optional plus. -/
def IsLength (suffix : List Char) (n : Nat) : Prop :=
  ∃ digits, (suffix = digits ∨ suffix = '+' :: digits) ∧ IsNumeral digits n ∧
    0 < n ∧ n < lengthBound

/-- `Starred spec body star`: `body` is left of `spec` without one star at its end, and `star` says
whether there was one. -/
inductive Starred : List Char → List Char → Bool → Prop
  | star {body : List Char} : Starred (body ++ ['*']) body true
  | bare {spec : List Char} : (∀ body, spec ≠ body ++ ['*']) → Starred spec spec false

/-- `Measured body name length`: a colon and a length end the body, or none do and all of the body
is the name. -/
inductive Measured : List Char → List Char → Option Nat → Prop
  | cut {name suffix : List Char} {n : Nat} :
      IsLength suffix n → Measured (name ++ ':' :: suffix) name (some n)
  | whole {body : List Char} :
      (∀ name suffix n, body = name ++ ':' :: suffix → ¬ IsLength suffix n) → Measured body body none

/-- The text `spec` is a way to write the variable `v`. -/
def Spells (spec : List Char) (v : Variable) : Prop :=
  ∃ body, Starred spec body v.exploded ∧ Measured body v.name.toList v.maxLength ∧
    v.name.toList ≠ []

section Reading

variable {spec body name suffix cs before after : List Char} {c : Char} {star : Bool} {n : Nat}
  {max : Option Nat} {v : Variable}

/-- A length is a decimal number from one to below the bound. -/
theorem length?_eq_some_iff : length? suffix = some n ↔ IsLength suffix n := by
  unfold length?
  rw [Option.filter_eq_some_iff, Decimal.ofDigits?_eq_some_iff, Bool.and_eq_true,
    decide_eq_true_iff, decide_eq_true_iff]
  constructor
  · rintro ⟨numeral, bounds⟩
    split at numeral
    · exact ⟨_, .inr rfl, numeral, bounds⟩
    · exact ⟨_, .inl rfl, numeral, bounds⟩
  · rintro ⟨digits, rfl | rfl, numeral, bounds⟩
    · split
      · exact absurd rfl (numeral.head_ne_plus _)
      · exact ⟨numeral, bounds⟩
    · exact ⟨numeral, bounds⟩

theorem IsLength.plus_or_digit (is : IsLength suffix n) (mem : c ∈ suffix) :
    c = '+' ∨ Decimal.isDigit c = true := by
  obtain ⟨digits, rfl | rfl, numeral, -⟩ := is
  · exact .inr (numeral.digit c mem)
  · exact (List.mem_cons.1 mem).imp id (numeral.digit c)

theorem IsLength.no_colon (is : IsLength suffix n) : ':' ∉ suffix := fun mem =>
  absurd (is.plus_or_digit mem) (by decide)

theorem splitStar_eq_iff : splitStar spec = (body, star) ↔ Starred spec body star := by
  rw [splitStar]
  constructor
  · split
    · rename_i ends
      rintro ⟨rfl, rfl⟩
      obtain ⟨body, rfl⟩ := List.getLast?_eq_some_iff.1 (beq_iff_eq.1 ends)
      rw [List.dropLast_concat]
      exact .star
    · rename_i ends
      rintro ⟨rfl, rfl⟩
      exact .bare fun body same => ends (by simp [same])
  · rintro (_ | bare)
    · simp
    · rw [if_neg]
      intro ends
      obtain ⟨body, same⟩ := List.getLast?_eq_some_iff.1 (beq_iff_eq.1 ends)
      exact bare body same

/-- A text with a colon is cut at the last one. -/
theorem splitLastColon_eq_some_iff :
    splitLastColon cs = some (before, after) ↔ cs = before ++ ':' :: after ∧ ':' ∉ after := by
  have cut : ∀ {before after : List Char}, ':' ∉ after →
      splitLastColon (before ++ ':' :: after) = some (before, after) := by
    intro before after colon
    have passed : ∀ c ∈ after.reverse, (c != ':') = true := by
      intro c inside
      simpa using ne_of_mem_of_not_mem (List.mem_reverse.1 inside) colon
    have back : (before ++ ':' :: after).reverse = after.reverse ++ ':' :: before.reverse := by simp
    rw [splitLastColon, if_pos (by simp), back, List.dropWhile_append_of_pos passed,
      List.takeWhile_append_of_pos passed]
    simp
  constructor
  · intro found
    have colon : ':' ∈ cs := by
      by_contra absent
      simp [splitLastColon, absent] at found
    obtain ⟨back, front, same, absent⟩ := List.eq_append_cons_of_mem (List.mem_reverse.2 colon)
    obtain rfl : cs = front.reverse ++ ':' :: back.reverse := by
      simpa using congrArg List.reverse same
    rw [cut (by simpa using absent), Option.some.injEq, Prod.mk.injEq] at found
    obtain ⟨rfl, rfl⟩ := found
    exact ⟨rfl, by simpa using absent⟩
  · rintro ⟨rfl, colon⟩
    exact cut colon

theorem splitLength_eq_iff : splitLength body = (name, max) ↔ Measured body name max := by
  rw [splitLength]
  constructor
  · intro read
    split at read
    · rename_i uncut
      obtain ⟨rfl, rfl⟩ := Prod.mk.inj read
      refine .whole fun name suffix n same is => ?_
      rw [splitLastColon_eq_some_iff.2 ⟨same, is.no_colon⟩] at uncut
      cases uncut
    · rename_i before after cut
      obtain ⟨same, colon⟩ := splitLastColon_eq_some_iff.1 cut
      split at read
      · rename_i n measured
        obtain ⟨rfl, rfl⟩ := Prod.mk.inj read
        rw [same]
        exact .cut (length?_eq_some_iff.1 measured)
      · rename_i unmeasured
        obtain ⟨rfl, rfl⟩ := Prod.mk.inj read
        refine .whole fun name suffix n same' is => ?_
        -- A length holds no colon, so this split too is at the last one.
        rw [splitLastColon_eq_some_iff.2 ⟨same', is.no_colon⟩, Option.some.injEq,
          Prod.mk.injEq] at cut
        rw [← cut.2, length?_eq_some_iff.2 is] at unmeasured
        cases unmeasured
  · rintro (is | unmeasured)
    · rw [splitLastColon_eq_some_iff.2 ⟨rfl, is.no_colon⟩]
      simp [length?_eq_some_iff.2 is]
    · split
      · rfl
      · rename_i before after cut
        split
        · rename_i n measured
          obtain ⟨same, -⟩ := splitLastColon_eq_some_iff.1 cut
          exact absurd (length?_eq_some_iff.1 measured) (unmeasured _ _ _ same)
        · rfl

/-- A spec is read exactly as the grammar has it, except that no name holds a brace. -/
theorem ofChars?_eq_some_iff :
    ofChars? spec = some v ↔ Spells spec v ∧ ∀ c ∈ v.name.toList, isBrace c = false := by
  have opened : ofChars? spec = some v ↔
      (splitLength (splitStar spec).1).1 ≠ [] ∧
        (∀ c ∈ (splitLength (splitStar spec).1).1, isBrace c = false) ∧
        ⟨String.ofList (splitLength (splitStar spec).1).1, (splitLength (splitStar spec).1).2,
          (splitStar spec).2⟩ = v := by
    simp [ofChars?, Option.ite_none_left_eq_some, and_assoc]
  rw [opened]
  constructor
  · rintro ⟨some_, free, rfl⟩
    refine ⟨⟨(splitStar spec).1, splitStar_eq_iff.1 rfl, ?_, by simpa using some_⟩, by simpa using free⟩
    rw [String.toList_ofList]
    exact splitLength_eq_iff.1 rfl
  · rintro ⟨⟨body, starred, measured, some_⟩, free⟩
    rw [splitStar_eq_iff.2 starred, splitLength_eq_iff.2 measured]
    exact ⟨some_, free, by simp⟩

/-- A name is part of its spec. -/
theorem Spells.name_subset (spells : Spells spec v) : v.name.toList ⊆ spec := by
  obtain ⟨body, starred, measured, -⟩ := spells
  have inner : v.name.toList ⊆ body := by
    generalize v.name.toList = name, v.maxLength = max at measured
    cases measured with
    | cut => exact List.subset_append_left _ _
    | whole => exact List.Subset.refl _
  have outer : body ⊆ spec := by
    generalize v.exploded = star at starred
    cases starred with
    | star => exact List.subset_append_left _ _
    | bare => exact List.Subset.refl _
  exact List.Subset.trans inner outer

end Reading

end Variable

/-! ## What stands between braces -/

namespace Expression

open Variable (Spells isBrace)

/-- `Selects body op specs`: the first character of the body is the sigil of `op` and `specs` are
the others, or it is no sigil and all of the body is specs. -/
inductive Selects : List Char → Operator → List Char → Prop
  | sigil {c : Char} {specs : List Char} {op : Operator} :
      op.sigil? = some c → Selects (c :: specs) op specs
  | simple {specs : List Char} :
      (∀ c rest op, specs = c :: rest → Operator.sigil? op ≠ some c) → Selects specs .simple specs

/-- The text `body` is a way to write the expression `e`. -/
def Describes (body : List Char) (e : Expression) : Prop :=
  ∃ parts, Selects body e.operator ([','].intercalate parts) ∧ parts ≠ [] ∧
    (∀ part ∈ parts, ',' ∉ part) ∧ List.Forall₂ Spells parts e.vars

section Reading

variable {body specs : List Char} {op : Operator} {e : Expression}

theorem splitOperator_eq_iff : splitOperator body = (op, specs) ↔ Selects body op specs := by
  constructor
  · intro read
    cases body with
    | nil =>
      obtain ⟨rfl, rfl⟩ := Prod.mk.inj read
      exact .simple (by simp)
    | cons c rest =>
      rw [splitOperator] at read
      split at read
      · rename_i op' found
        obtain ⟨rfl, rfl⟩ := Prod.mk.inj read
        exact .sigil (Operator.ofSigil?_eq_some_iff.1 found)
      · rename_i none_
        obtain ⟨rfl, rfl⟩ := Prod.mk.inj read
        refine .simple fun c' rest' op same sigil => ?_
        obtain ⟨rfl, rfl⟩ := List.cons.inj same
        rw [Operator.ofSigil?_eq_some_iff.2 sigil] at none_
        cases none_
  · rintro (sigil | none_)
    · simp [splitOperator, Operator.ofSigil?_eq_some_iff.2 sigil]
    · cases body with
      | nil => rfl
      | cons c rest =>
        rw [splitOperator]
        split
        · rename_i op' found
          exact absurd (Operator.ofSigil?_eq_some_iff.1 found) (none_ c rest op' rfl)
        · rfl

theorem mapM_ofChars?_eq_some_iff {parts : List (List Char)} {vs : List Variable} :
    parts.mapM Variable.ofChars? = some vs ↔
      List.Forall₂ (fun part v => Variable.ofChars? part = some v) parts vs := by
  induction parts generalizing vs with
  | nil => simp [eq_comm]
  | cons part parts ih =>
    rw [List.mapM_cons]
    constructor
    · intro read
      obtain ⟨v, first, others⟩ := Option.bind_eq_some_iff.1 read
      obtain ⟨vs', later, same⟩ := Option.bind_eq_some_iff.1 others
      obtain rfl : v :: vs' = vs := by simpa using same
      exact .cons first (ih.1 later)
    · rintro (_ | ⟨first, others⟩)
      simp [first, ih.2 others]

theorem Selects.subset (selects : Selects body op specs) : specs ⊆ body := by
  cases selects with
  | sigil => exact List.subset_cons_self _ _
  | simple => exact List.Subset.refl _

theorem subset_intercalate {parts : List (List Char)} {part : List Char} (mem : part ∈ parts) :
    part ⊆ [','].intercalate parts := by
  induction parts with
  | nil => cases mem
  | cons first others ih =>
    cases others with
    | nil => simp_all
    | cons second others =>
      rw [List.intercalate_cons_cons]
      rcases List.mem_cons.1 mem with rfl | later
      · exact List.Subset.trans (List.subset_append_left _ _) (List.subset_append_left _ _)
      · exact List.Subset.trans (ih later) (List.subset_append_right _ _)

/-- Each variable has its spec. -/
theorem exists_part {parts : List (List Char)} {vs : List Variable} {v : Variable}
    (spelled : List.Forall₂ Spells parts vs) (mem : v ∈ vs) : ∃ part ∈ parts, Spells part v := by
  induction spelled with
  | nil => cases mem
  | cons spells _ ih =>
    rcases List.mem_cons.1 mem with rfl | later
    · exact ⟨_, List.mem_cons_self, spells⟩
    · obtain ⟨part, there, spells'⟩ := ih later
      exact ⟨part, List.mem_cons_of_mem _ there, spells'⟩

/-- What stands between braces is read exactly as the grammar has it. -/
theorem ofChars?_eq_some_iff (free : ∀ c ∈ body, isBrace c = false) :
    ofChars? body = some e ↔ Describes body e := by
  have opened : ofChars? body = some e ↔
      (splitOperator body).2 ≠ [] ∧ ∃ vs,
        ((splitOperator body).2.splitOn ',').mapM Variable.ofChars? = some vs ∧
          ⟨(splitOperator body).1, vs⟩ = e := by
    simp [ofChars?, Option.ite_none_left_eq_some]
  rw [opened]
  constructor
  · rintro ⟨-, vs, read, rfl⟩
    refine ⟨(splitOperator body).2.splitOn ',', ?_, List.splitOn_ne_nil _ _,
      fun part => not_mem_of_mem_splitOn, ?_⟩
    · rw [List.intercalate_splitOn]
      exact splitOperator_eq_iff.1 rfl
    · exact (mapM_ofChars?_eq_some_iff.1 read).imp fun part v one =>
        (Variable.ofChars?_eq_some_iff.1 one).1
  · rintro ⟨parts, selects, some_, apart, spelled⟩
    have split := List.splitOn_intercalate ',' apart some_
    have clean : ∀ part ∈ parts, ∀ c ∈ part, isBrace c = false := fun part mem c inside =>
      free c (selects.subset (subset_intercalate mem inside))
    rw [splitOperator_eq_iff.2 selects, split]
    refine ⟨?_, e.vars, mapM_ofChars?_eq_some_iff.2 ?_, rfl⟩
    · -- No specs at all would be one empty spec, and it has no name.
      intro (nothing : [','].intercalate parts = [])
      rw [nothing, List.splitOn_nil] at split
      rw [← split] at spelled
      obtain ⟨v, vs, spells, -, -⟩ := List.forall₂_cons_left_iff.1 spelled
      exact spells.choose_spec.2.2 (List.eq_nil_of_subset_nil spells.name_subset)
    · refine ((List.forall₂_and_left _ _).2 ⟨clean, spelled⟩).imp fun part v one => ?_
      exact Variable.ofChars?_eq_some_iff.2 ⟨one.2, fun c inside => one.1 c (one.2.name_subset inside)⟩

end Reading

end Expression

end Template

end HttpForms
