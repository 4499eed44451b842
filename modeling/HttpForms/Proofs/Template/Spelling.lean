import HttpForms.Proofs.Template.Grammar

/-!
# One spelling for each expression

The grammar lets a length be written with a plus and with zeros before its digits, and everything else
in one way only. So a spec is its variable's own spelling up to that padding, and the spelling is a
spec of the variable again: a name that looks like a modifier is never taken for one, because the star
is taken off first, and the length after it.

Results:

1. `Decimal.IsNumeral.eq_digits` — a numeral is the digits of its value behind zeros;
2. `Variable.Spells.isSpelling`, `Variable.Spells.of_isSpelling` — the specs of a variable are its
   own spelling up to the padding of a length;
3. `Expression.Describes.isSpelling`, `Expression.Describes.toChars` — what stands between braces is
   the spelling of its expression up to padding, and the spelling describes the expression again.
-/

namespace HttpForms

/-! ## Numerals -/

namespace Decimal

variable {cs : List Char} {c : Char} {n : Nat}

theorem isDigit_iff : isDigit c = true ↔ 48 ≤ c.toNat ∧ c.toNat ≤ 57 := by
  rw [isDigit, Bool.and_eq_true, decide_eq_true_iff, decide_eq_true_iff]
  exact Iff.rfl

theorem isDigit_of_mem_digits (mem : c ∈ digits n) : isDigit c = true := by
  have digit := Nat.isDigit_of_mem_toDigits (by decide) (by decide) mem
  rw [Char.isDigit, Bool.and_eq_true, decide_eq_true_iff, decide_eq_true_iff] at digit
  exact isDigit_iff.2 digit

/-- The digits of a number are a numeral of it. -/
theorem isNumeral_digits (n : Nat) : IsNumeral (digits n) n where
  some_ := Nat.toDigits_ne_nil
  digit _ mem := isDigit_of_mem_digits mem
  value := Nat.ofDigitChars_toDigits (by decide) (by decide)

/-- Zeros in front of a numeral leave its value as it is. -/
theorem IsNumeral.pad (is : IsNumeral cs n) (zeros : Nat) :
    IsNumeral (List.replicate zeros '0' ++ cs) n := by
  induction zeros with
  | zero => exact is
  | succ zeros ih =>
    obtain ⟨some_, digit, value⟩ := ih
    refine ⟨by simp, fun c mem => ?_, value⟩
    rcases List.mem_cons.1 mem with rfl | later
    · decide
    · exact digit c later

/-- Digits behind the digits of a number, which is not zero, are digits of a larger one. -/
theorem digits_append (positive : 0 < n) (digit : ∀ c ∈ cs, isDigit c = true) :
    digits n ++ cs = digits (Nat.ofDigitChars 10 cs n) := by
  induction cs generalizing n with
  | nil => simp
  | cons c cs ih =>
    obtain ⟨low, high⟩ := isDigit_iff.1 (digit c List.mem_cons_self)
    have small : c.toNat - 48 < 10 := by omega
    have same : Nat.digitChar (c.toNat - 48) = c := by
      apply Char.toNat_inj.1
      rw [Nat.toNat_digitChar_of_lt_ten small]
      omega
    have last := Nat.toDigits_append_toDigits (b := 10) (by decide) positive small
    rw [Nat.toDigits_of_lt_base small, same] at last
    calc digits n ++ c :: cs
        = (digits n ++ [c]) ++ cs := by simp
      _ = digits (10 * n + (c.toNat - 48)) ++ cs := congrArg (· ++ cs) last
      _ = digits (Nat.ofDigitChars 10 (c :: cs) n) :=
          ih (by omega) fun d mem => digit d (List.mem_cons_of_mem _ mem)

/-- A numeral is the digits of its value behind zeros. Zero itself has no digits left then. -/
theorem IsNumeral.eq_digits (is : IsNumeral cs n) (positive : 0 < n) :
    ∃ zeros, cs = List.replicate zeros '0' ++ digits n := by
  obtain ⟨-, digit, rfl⟩ := is
  induction cs with
  | nil => exact absurd positive (Nat.lt_irrefl 0)
  | cons c cs ih =>
    have digits_cs : ∀ d ∈ cs, isDigit d = true := fun d mem => digit d (List.mem_cons_of_mem _ mem)
    by_cases zero : c = '0'
    · subst zero
      obtain ⟨zeros, same⟩ := ih digits_cs positive
      exact ⟨zeros + 1, by rw [List.replicate_succ, List.cons_append]; exact congrArg _ same⟩
    · obtain ⟨low, high⟩ := isDigit_iff.1 (digit c List.mem_cons_self)
      have some_ : c.toNat ≠ 48 := fun same => zero (Char.toNat_inj.1 same)
      have first : digits (c.toNat - 48) = [c] := by
        rw [digits, Nat.toDigits_of_lt_base (by omega)]
        congr 1
        apply Char.toNat_inj.1
        rw [Nat.toNat_digitChar_of_lt_ten (by omega)]
        omega
      have value : valueOf (c :: cs) = Nat.ofDigitChars 10 cs (c.toNat - 48) := by
        rw [← Nat.zero_add (c.toNat - 48)]
        exact Nat.ofDigitChars_cons
      have whole := digits_append (n := c.toNat - 48) (by omega) digits_cs
      rw [first] at whole
      exact ⟨0, whole.trans (congrArg digits value.symm)⟩

end Decimal

namespace Template

/-! ## One variable -/

namespace Variable

open Decimal (IsNumeral)

/-- The digits of a number behind zeros and an optional plus. -/
def IsPadded (suffix : List Char) (n : Nat) : Prop :=
  ∃ zeros, suffix = List.replicate zeros '0' ++ Decimal.digits n ∨
    suffix = '+' :: (List.replicate zeros '0' ++ Decimal.digits n)

/-- What stands between a name and a star: a colon and a length that may be padded, or nothing. -/
def IsModifier (suffix : List Char) : Option Nat → Prop
  | some n => ∃ padded, suffix = ':' :: padded ∧ IsPadded padded n
  | none => suffix = []

/-- The text `spec` is the spelling of `v`, except that its length may be padded. -/
def IsSpelling (spec : List Char) (v : Variable) : Prop :=
  ∃ suffix, spec = v.name.toList ++ suffix ++ (if v.exploded then ['*'] else []) ∧
    IsModifier suffix v.maxLength

section Spellings

variable {spec other body suffix : List Char} {n : Nat} {v : Variable} {c : Char}

theorem IsLength.isPadded (is : IsLength suffix n) : IsPadded suffix n := by
  obtain ⟨digits, spelled, numeral, positive, -⟩ := is
  obtain ⟨zeros, rfl⟩ := numeral.eq_digits positive
  exact ⟨zeros, spelled⟩

theorem IsPadded.isLength (is : IsPadded suffix n) (positive : 0 < n) (small : n < lengthBound) :
    IsLength suffix n := by
  obtain ⟨zeros, spelled⟩ := is
  exact ⟨_, spelled, (Decimal.isNumeral_digits n).pad zeros, positive, small⟩

theorem Starred.spec_eq {star : Bool} (starred : Starred spec body star) :
    spec = body ++ if star then ['*'] else [] := by
  cases starred with
  | star => rfl
  | bare => exact (List.append_nil _).symm

/-- A spec is the spelling of its variable up to the padding of a length. -/
theorem Spells.isSpelling (spells : Spells spec v) : IsSpelling spec v := by
  obtain ⟨name, max, star⟩ := v
  obtain ⟨body, starred, measured, -⟩ := spells
  generalize spelled : name.toList = cs at measured
  have inner : ∃ suffix, body = cs ++ suffix ∧ IsModifier suffix max := by
    cases measured with
    | cut is => exact ⟨_, rfl, _, rfl, is.isPadded⟩
    | whole => exact ⟨[], (List.append_nil _).symm, rfl⟩
  obtain ⟨suffix, rfl, length⟩ := inner
  subst spelled
  exact ⟨suffix, starred.spec_eq, length⟩

theorem IsLength.no_star (is : IsLength suffix n) : '*' ∉ suffix := fun mem =>
  absurd (is.plus_or_digit mem) (by decide)

/-- Behind a length only a star of its own is taken off. -/
theorem starred_cut (is : IsLength suffix n) (name : List Char) (star : Bool) :
    Starred (name ++ ':' :: suffix ++ if star then ['*'] else []) (name ++ ':' :: suffix) star := by
  cases star with
  | true => exact .star
  | false =>
    rw [if_neg (by simp), List.append_nil]
    refine .bare fun body same => ?_
    -- The last character belongs to the length or is the colon, so it is not taken for a star.
    have last := congrArg List.getLast? same
    rw [List.getLast?_concat, List.getLast?_append_cons] at last
    rcases List.mem_cons.1 (List.mem_of_getLast? last) with colon | inside
    · exact absurd colon (by decide)
    · exact is.no_star inside

/-- Every text that spells a variable up to padding is a spec of it. -/
theorem Spells.of_isSpelling (spells : Spells spec v) (is : IsSpelling other v) :
    Spells other v := by
  obtain ⟨name, max, star⟩ := v
  obtain ⟨suffix, rfl, modifier⟩ := is
  obtain ⟨body, starred, measured, some_⟩ := spells
  simp only at starred measured some_ modifier
  generalize spelled : name.toList = cs at measured
  cases measured with
  | cut is =>
    subst spelled
    obtain ⟨-, -, -, positive, small⟩ := is
    obtain ⟨padded, rfl, is⟩ := modifier
    have length := is.isLength positive small
    exact ⟨_, starred_cut length _ star, .cut length, some_⟩
  | whole unmeasured =>
    subst spelled
    obtain rfl : suffix = [] := modifier
    refine ⟨name.toList, ?_, .whole unmeasured, some_⟩
    rw [List.append_nil, ← starred.spec_eq]
    exact starred

/-- A variable's own spelling has no padding. -/
theorem isSpelling_toChars (v : Variable) : IsSpelling v.toChars v := by
  obtain ⟨name, max, star⟩ := v
  cases max with
  | none => exact ⟨[], rfl, rfl⟩
  | some n => exact ⟨_, rfl, _, rfl, 0, .inl rfl⟩

/-- The spelling of a variable is a spec of it. -/
theorem Spells.toChars (spells : Spells spec v) : Spells v.toChars v :=
  spells.of_isSpelling (isSpelling_toChars v)

/-- A spelling holds nothing that a spec does not hold, except for digits. -/
theorem Spells.mem_toChars (spells : Spells spec v) (mem : c ∈ v.toChars) :
    c ∈ spec ∨ Decimal.isDigit c = true := by
  obtain ⟨suffix, rfl, length⟩ := spells.isSpelling
  rw [Variable.toChars, List.mem_append, List.mem_append] at mem
  rcases mem with (name | measure) | star
  · simp [name]
  · cases max : v.maxLength with
    | none => simp [max] at measure
    | some n =>
      rw [max] at length measure
      obtain ⟨padded, rfl, -⟩ := length
      rcases List.mem_cons.1 measure with rfl | digit
      · simp
      · exact .inr (Decimal.isDigit_of_mem_digits digit)
  · exact .inl (List.mem_append_right _ star)

/-- Spec and spelling begin alike, with the name. -/
theorem Spells.head?_toChars (spells : Spells spec v) (rest rest' : List Char) :
    (v.toChars ++ rest).head? = (spec ++ rest').head? := by
  obtain ⟨suffix, rfl, -⟩ := spells.isSpelling
  obtain ⟨-, -, -, some_⟩ := spells
  obtain ⟨c, name, first⟩ := List.exists_cons_of_ne_nil some_
  simp [Variable.toChars, first]

end Spellings

end Variable

/-! ## What stands between braces -/

namespace Expression

open Variable (Spells isBrace)

/-- The text `body` is the spelling of `e`, except that lengths may be padded. -/
def IsSpelling (body : List Char) (e : Expression) : Prop :=
  ∃ parts, body = e.operator.sigil?.toList ++ [','].intercalate parts ∧
    List.Forall₂ Variable.IsSpelling parts e.vars

section Spellings

variable {body specs : List Char} {op : Operator} {e : Expression} {c : Char}
  {parts : List (List Char)} {vs : List Variable}

theorem Selects.eq (selects : Selects body op specs) : body = op.sigil?.toList ++ specs := by
  cases selects with
  | sigil sigil => rw [sigil]; rfl
  | simple => rfl

/-- What stands between braces is the spelling of its expression up to the padding of lengths. -/
theorem Describes.isSpelling (describes : Describes body e) : IsSpelling body e := by
  obtain ⟨parts, selects, -, -, spelled⟩ := describes
  exact ⟨parts, selects.eq, spelled.imp fun _ _ spells => spells.isSpelling⟩

theorem mem_intercalate (mem : c ∈ [','].intercalate parts) : c = ',' ∨ ∃ part ∈ parts, c ∈ part := by
  induction parts with
  | nil => simp at mem
  | cons first others ih =>
    cases others with
    | nil => exact .inr ⟨first, List.mem_cons_self, by simpa using mem⟩
    | cons second others =>
      rw [List.intercalate_cons_cons, List.mem_append, List.mem_append] at mem
      rcases mem with (here | comma) | later
      · exact .inr ⟨first, List.mem_cons_self, here⟩
      · exact .inl (List.mem_singleton.1 comma)
      · rcases ih later with comma | ⟨part, mem, here⟩
        · exact .inl comma
        · exact .inr ⟨part, List.mem_cons_of_mem _ mem, here⟩

/-- Rows of specs and of spellings begin alike. -/
theorem head?_intercalate (spelled : List.Forall₂ Spells parts vs) :
    ([','].intercalate (vs.map Variable.toChars)).head? = ([','].intercalate parts).head? := by
  cases spelled with
  | nil => rfl
  | cons first others =>
    cases others with
    | nil => simpa using first.head?_toChars [] []
    | cons second others =>
      rw [List.map_cons, List.map_cons, List.intercalate_cons_cons, List.intercalate_cons_cons,
        List.append_assoc, List.append_assoc]
      exact first.head?_toChars _ _

/-- The spelling of an expression is one of its bodies. -/
theorem Describes.toChars (describes : Describes body e) : Describes e.toChars e := by
  obtain ⟨parts, selects, some_, apart, spelled⟩ := describes
  have length := spelled.length_eq
  refine ⟨e.vars.map Variable.toChars, ?_, ?_, ?_, ?_⟩
  · rw [Expression.toChars]
    have heads := head?_intercalate spelled
    generalize e.operator = op at selects
    generalize [','].intercalate parts = specs at selects heads
    cases selects with
    | sigil sigil =>
      rw [sigil]
      exact .sigil sigil
    | simple none_ =>
      refine .simple fun c rest op (same : [','].intercalate (e.vars.map Variable.toChars) = c :: rest)
        sigil => ?_
      rw [same] at heads
      obtain ⟨rest', first⟩ := List.head?_eq_some_iff.1 heads.symm
      exact none_ c rest' op first sigil
  · intro nothing
    rw [List.map_eq_nil_iff.1 nothing, List.length_nil, List.length_eq_zero_iff] at length
    exact some_ length
  · intro part mem comma
    obtain ⟨v, there, rfl⟩ := List.mem_map.1 mem
    obtain ⟨spec, inside, spells⟩ := exists_part spelled there
    rcases spells.mem_toChars comma with here | digit
    · exact apart spec inside here
    · exact absurd digit (by decide)
  · rw [List.forall₂_map_left_iff, List.forall₂_same]
    intro v there
    obtain ⟨spec, -, spells⟩ := exists_part spelled there
    exact spells.toChars

/-- The spelling of an expression holds no brace if one of its bodies holds none. -/
theorem Describes.free_toChars (describes : Describes body e) (free : ∀ c ∈ body, isBrace c = false) :
    ∀ c ∈ e.toChars, isBrace c = false := by
  intro c mem
  obtain ⟨parts, selects, -, -, spelled⟩ := describes
  rw [selects.eq] at free
  rcases List.mem_append.1 mem with sigil | row
  · exact free c (List.mem_append_left _ sigil)
  rcases mem_intercalate row with rfl | ⟨part, there, here⟩
  · decide
  obtain ⟨v, inside, rfl⟩ := List.mem_map.1 there
  obtain ⟨spec, stands, spells⟩ := exists_part spelled inside
  rcases spells.mem_toChars here with old | digit
  · exact free c (List.mem_append_right _ (subset_intercalate stands old))
  · have bounds := Decimal.isDigit_iff.1 digit
    rw [isBrace, Bool.or_eq_false_iff, beq_eq_false_iff_ne, beq_eq_false_iff_ne]
    constructor <;> (rintro rfl; simp at bounds)

end Spellings

end Expression

end Template

end HttpForms
