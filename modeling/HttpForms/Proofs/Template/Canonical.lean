import HttpForms.Proofs.Template.Spelling

/-!
# The canonical spec of a variable

A variable can be written in many ways, but they differ only in how its length is padded, and its own
spelling is the one without padding. So to read a spec and to print the variable brings the spec into
a normal form, and changes it exactly if it carries a length that begins with a plus or with a zero.
Zeros that belong to no length, as in `a:0` or in a number beyond the bound, are part of the name and
stay.

Results:

1. `Decimal.digits_ne_zero_cons` — the digits of a number do not begin with a zero;
2. `Variable.Spells.toChars_eq_iff` — a spec is its variable's own spelling unless it pads a length;
3. `Variable.display_canonical` — what is printed is read as the same variable and is canonical.
-/

namespace HttpForms

/-! ## Digits without padding -/

namespace Decimal

variable {n : Nat}

/-- The digits of a number that is not zero do not begin with a zero. -/
theorem digits_ne_zero_cons (positive : 0 < n) (rest : List Char) : digits n ≠ '0' :: rest := by
  intro same
  obtain ⟨-, digit, value⟩ := isNumeral_digits n
  rw [same] at digit value
  have some_ : rest ≠ [] := by
    rintro rfl
    exact absurd (value : 0 = n) (Nat.ne_of_lt positive)
  -- Without the zero there is a numeral of the same number, and it is shorter than the digits.
  have shorter : IsNumeral rest n :=
    ⟨some_, fun c mem => digit c (List.mem_cons_of_mem _ mem), value⟩
  obtain ⟨zeros, padded⟩ := shorter.eq_digits positive
  have length := congrArg List.length padded
  rw [same, List.length_append, List.length_cons] at length
  omega

theorem digits_ne_plus_cons (rest : List Char) : digits n ≠ '+' :: rest :=
  (isNumeral_digits n).head_ne_plus rest

end Decimal

/-! ## Specs without padding -/

namespace Template.Variable

/-- The spec carries a length that begins with a plus or with a zero. -/
def PadsLength (spec : List Char) : Prop :=
  ∃ body star name suffix n, Starred spec body star ∧ body = name ++ ':' :: suffix ∧
    IsLength suffix n ∧ (suffix.head? = some '+' ∨ suffix.head? = some '0')

section Canonical

variable {spec body body' suffix name name' : List Char} {star star' : Bool} {n : Nat}
  {max max' : Option Nat} {v : Variable}

theorem Starred.unique (one : Starred spec body star) (other : Starred spec body' star') :
    body = body' ∧ star = star' :=
  Prod.mk.inj ((splitStar_eq_iff.2 one).symm.trans (splitStar_eq_iff.2 other))

theorem Measured.unique (one : Measured body name max) (other : Measured body name' max') :
    name = name' ∧ max = max' :=
  Prod.mk.inj ((splitLength_eq_iff.2 one).symm.trans (splitLength_eq_iff.2 other))

/-- A length is in plain decimal, or its padding is seen at its first character. -/
theorem IsLength.eq_digits_or (is : IsLength suffix n) :
    suffix = Decimal.digits n ∨ suffix.head? = some '+' ∨ suffix.head? = some '0' := by
  obtain ⟨zeros, rfl | rfl⟩ := is.isPadded
  · cases zeros with
    | zero => exact .inl rfl
    | succ zeros => exact .inr (.inr rfl)
  · exact .inr (.inl rfl)

theorem IsLength.digits_ne (is : IsLength suffix n)
    (padded : suffix.head? = some '+' ∨ suffix.head? = some '0') : Decimal.digits n ≠ suffix := by
  intro same
  obtain ⟨-, -, -, positive, -⟩ := is
  rcases padded with first | first <;> obtain ⟨rest, rfl⟩ := List.head?_eq_some_iff.1 first
  · exact Decimal.digits_ne_plus_cons rest same
  · exact Decimal.digits_ne_zero_cons positive rest same

/-- A spec is its variable's own spelling unless it pads a length. -/
theorem Spells.toChars_eq_iff (spells : Spells spec v) : v.toChars = spec ↔ ¬ PadsLength spec := by
  obtain ⟨name, max, star⟩ := v
  obtain ⟨body, starred, measured, -⟩ := spells
  simp only at starred measured
  constructor
  · rintro same ⟨body', star', name', suffix, n, starred', rfl, is, padded⟩
    -- The spec is read in one way only, so the padded length is the length of the variable.
    obtain ⟨rfl, rfl⟩ := starred.unique starred'
    obtain ⟨rfl, rfl⟩ := measured.unique (.cut is)
    rw [starred.spec_eq, Variable.toChars] at same
    have digits : ':' :: Decimal.digits n = ':' :: suffix :=
      List.append_cancel_left (List.append_cancel_right same)
    exact is.digits_ne padded (List.cons.inj digits).2
  · intro unpadded
    generalize spelled : name.toList = cs at measured
    cases measured with
    | @cut _ suffix n is =>
      subst spelled
      rcases is.eq_digits_or with rfl | padded
      · exact starred.spec_eq.symm
      · exact absurd ⟨_, _, _, _, _, starred, rfl, is, padded⟩ unpadded
    | whole unmeasured =>
      subst spelled
      rw [starred.spec_eq, Variable.toChars, List.append_nil]

/-- What is read from a text is printed as a text that is read as the same variable. The texts of one
variable are its own spelling up to the padding of a length, and it is printed as the text it was read
from unless that text pads a length. -/
theorem display_canonical {s : String} {v : Variable} (read : ofString? s = some v) :
    ofString? v.display = some v ∧
    (v.display = s ↔ ¬ PadsLength s.toList) ∧
    ∀ other, ofString? other = some v ↔ IsSpelling other.toList v := by
  obtain ⟨spells, free⟩ := ofChars?_eq_some_iff.1 read
  have texts : ∀ other, ofString? other = some v ↔ IsSpelling other.toList v := fun other =>
    ofChars?_eq_some_iff.trans
      ⟨fun again => again.1.isSpelling, fun is => ⟨spells.of_isSpelling is, free⟩⟩
  have printed : v.display.toList = v.toChars := String.toList_ofList
  refine ⟨(texts _).2 ?_, ?_, texts⟩
  · rw [printed]
    exact isSpelling_toChars v
  · rw [← spells.toChars_eq_iff, ← printed, String.toList_inj]

/-- The name ends with a star and holds a colon and a zero, and behind it stands a padded length. -/
theorem display_canonical_sample :
    ofString? "a:0*:+03*" = some ⟨"a:0*", some 3, true⟩ ∧
    ofString? "a:0*:3*" = some ⟨"a:0*", some 3, true⟩ ∧ PadsLength "a:0*:+03*".toList := by
  have read : ofString? "a:0*:+03*" = some ⟨"a:0*", some 3, true⟩ := by decide +kernel
  have printed : display ⟨"a:0*", some 3, true⟩ = "a:0*:3*" := by decide +kernel
  obtain ⟨again, canonical, -⟩ := display_canonical read
  refine ⟨read, printed ▸ again, ?_⟩
  by_contra unpadded
  exact absurd (canonical.2 unpadded) (by rw [printed]; decide)

/-- A number beyond the bound is part of the name, with all its zeros. -/
example : ofString? "a:018446744073709551616" = some (plain "a:018446744073709551616") := by
  decide +kernel

end Canonical

end Template.Variable

end HttpForms
