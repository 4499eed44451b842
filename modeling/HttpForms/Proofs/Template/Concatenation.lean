import HttpForms.Proofs.Template.Segments

/-!
# Templates end to end

Templates are put together from texts: a base, a path, a query. Whether the whole expands to what its
texts expand to depends on the seam alone. A pair of braces that opens in one text and closes in the
next is an expression of neither, and nothing else reaches across. Segments do not show this, because
literal text on both sides of the seam becomes one segment; the pieces that the text is cut into do.

Results:

1. `Segment.expand_ofChars` — a template expands piece by piece;
2. `Piece.ofChars_append` — texts are cut apart from each other where no pair stands across;
3. `expand_append` — so the expansions stand end to end as well.
-/

namespace HttpForms.Template

open Variable (isBrace)

/-! ## Seams -/

/-- What stands behind the last closing brace, all of the text if none closes. -/
def openEnd (cs : List Char) : List Char :=
  (cs.reverse.takeWhile (· != '\x7d')).reverse

/-- What stands before the first opening brace, all of the text if none opens. -/
def openFront (cs : List Char) : List Char :=
  cs.takeWhile (· != '\x7b')

/-- A pair of braces stands across the seam: it opens in one text and closes in the other, with no
brace in between. -/
def Across (one other : List Char) : Prop :=
  ∃ before front back after, one = before ++ '\x7b' :: front ∧ other = back ++ '\x7d' :: after ∧
    (∀ c ∈ front, isBrace c = false) ∧ ∀ c ∈ back, isBrace c = false

section Seams

variable {one other rest before front back after : List Char}

theorem mem_openEnd (free : ∀ c ∈ front, isBrace c = false) :
    '\x7b' ∈ openEnd (before ++ '\x7b' :: front) := by
  have kept : ∀ c ∈ front.reverse, (c != '\x7d') = true := by
    intro c here
    have plain := free c (List.mem_reverse.1 here)
    simp only [isBrace, Bool.or_eq_false_iff] at plain
    simpa using plain.2
  have back : (before ++ '\x7b' :: front).reverse = front.reverse ++ '\x7b' :: before.reverse := by
    simp
  rw [openEnd, List.mem_reverse, back, List.takeWhile_append_of_pos kept,
    List.takeWhile_cons_of_pos (by decide)]
  simp

theorem mem_openFront (free : ∀ c ∈ back, isBrace c = false) :
    '\x7d' ∈ openFront (back ++ '\x7d' :: after) := by
  have kept : ∀ c ∈ back, (c != '\x7b') = true := by
    intro c here
    have plain := free c here
    simp only [isBrace, Bool.or_eq_false_iff] at plain
    simpa using plain.1
  rw [openFront, List.takeWhile_append_of_pos kept, List.takeWhile_cons_of_pos (by decide)]
  simp

/-- Nothing stands across where one text leaves no brace open or the other closes none. -/
theorem not_across (seam : '\x7b' ∉ openEnd one ∨ '\x7d' ∉ openFront other) :
    ¬ Across one other := by
  rintro ⟨before, front, back, after, rfl, rfl, frontFree, backFree⟩
  rcases seam with closed | fresh
  · exact closed (mem_openEnd frontFree)
  · exact fresh (mem_openFront backFree)

/-- What stands across the end of a text stands across the end of the text before it. -/
theorem Across.append (across : Across rest other) (begun : List Char) :
    Across (begun ++ rest) other := by
  obtain ⟨before, front, back, after, rfl, rfl, frontFree, backFree⟩ := across
  exact ⟨begun ++ before, front, back, after, by simp, rfl, frontFree, backFree⟩

end Seams

/-! ## Pieces on both sides -/

namespace Piece

variable {one other rest body after : List Char}

theorem closing_append (found : closing rest = some (body, after)) (other : List Char) :
    closing (rest ++ other) = some (body, after ++ other) := by
  obtain ⟨rfl, free⟩ := closing_eq_some_iff.1 found
  exact closing_eq_some_iff.2 ⟨by simp, free⟩

/-- A brace that stays open in one text is not closed by the other unless a pair stands across. -/
theorem closing_append_none (none_ : closing rest = none) (seam : ¬ Across ('\x7b' :: rest) other) :
    closing (rest ++ other) = none := by
  cases found : closing (rest ++ other) with
  | none => rfl
  | some result =>
    obtain ⟨body, after⟩ := result
    obtain ⟨same, free⟩ := closing_eq_some_iff.1 found
    rcases List.append_eq_append_iff.1 same with ⟨back, rfl, behind⟩ | ⟨gap, rfl, behind⟩
    · -- The body runs past the end of the text, so its brace is closed behind the seam.
      refine absurd ⟨[], rest, back, after, rfl, behind, ?_, ?_⟩ seam
      · exact fun c here => free c (List.mem_append_left _ here)
      · exact fun c here => free c (List.mem_append_right _ here)
    · cases gap with
      | nil =>
        refine absurd ⟨[], body, [], after, by simp, by simpa using behind.symm, free, ?_⟩ seam
        simp
      | cons brace gap =>
        obtain ⟨rfl, -⟩ := List.cons.inj behind
        have closed : closing (body ++ '\x7d' :: gap) = some (body, gap) :=
          closing_eq_some_iff.2 ⟨rfl, free⟩
        rw [none_] at closed
        cases closed

/-- Texts are cut apart from each other where no pair stands across. -/
theorem ofChars_append (seam : ¬ Across one other) :
    ofChars (one ++ other) = ofChars one ++ ofChars other := by
  induction one using ofChars.induct with
  | case1 => rw [List.nil_append, ofChars, List.nil_append]
  | case2 c rest brace body after found ih =>
    obtain rfl := beq_iff_eq.1 brace
    obtain ⟨rfl, -⟩ := closing_eq_some_iff.1 found
    have later : ¬ Across after other := by
      intro across
      refine seam ?_
      simpa [braces] using across.append (braces body)
    rw [List.cons_append, ofChars_braced (closing_append found other), ofChars_braced found, ih later]
    rfl
  | case3 c rest brace none_ ih =>
    obtain rfl := beq_iff_eq.1 brace
    have later : ¬ Across rest other := fun across => seam (across.append ['\x7b'])
    rw [List.cons_append, ofChars_char fun _ => closing_append_none none_ seam,
      ofChars_char fun _ => none_, ih later]
    rfl
  | case4 c rest plain ih =>
    have later : ¬ Across rest other := fun across => seam (across.append [c])
    have notOpen : c ≠ '\x7b' := fun same => plain (beq_iff_eq.2 same)
    rw [List.cons_append, ofChars_char fun same => absurd same notOpen,
      ofChars_char fun same => absurd same notOpen, ih later]
    rfl

/-- What a piece expands to: itself, unless it is an expression. -/
def expand (lookup : Lookup) (names : NameMatch) : Piece → List Char
  | .char c => [c]
  | .braced body =>
    match Expression.ofChars? body with
    | some e => (e.expand lookup names).toList
    | none => braces body

end Piece

/-! ## Expansions -/

namespace Segment

variable {lookup : Lookup} {names : NameMatch}

/-- What segments expand to, one after the other. -/
def expandAll (lookup : Lookup) (names : NameMatch) (segments : List Segment) : List Char :=
  segments.flatMap fun segment => (segment.expand lookup names).toList

theorem piecewise_expand : Piecewise (fun segment => (segment.expand lookup names).toList)
    (Piece.expand lookup names) where
  text _ := rfl
  char _ := rfl
  expression read := by rw [Piece.expand, read, expand]
  rejected read := by rw [Piece.expand, read]

/-- A template expands piece by piece. -/
theorem expand_ofChars (cs : List Char) :
    expandAll lookup names (ofChars cs) =
      (Piece.ofChars cs).flatMap (Piece.expand lookup names) :=
  piecewise_expand.ofChars cs

end Segment

theorem toList_expand (text : String) (names : NameMatch) (lookup : Lookup) :
    ((UriTemplate.compile text names).expand lookup).toList =
      (Piece.ofChars text.toList).flatMap (Piece.expand lookup names) := by
  rw [UriTemplate.expand, String.toList_join, List.flatMap_map]
  exact Segment.expand_ofChars text.toList

/-- Two templates end to end expand to their expansions end to end, if no opening brace stands behind
the last closing one of the first, or no closing brace before the first opening one of the second. -/
theorem expand_append {one other : String}
    (seam : '\x7b' ∉ openEnd one.toList ∨ '\x7d' ∉ openFront other.toList)
    (names : NameMatch) (lookup : Lookup) :
    (UriTemplate.compile (one ++ other) names).expand lookup =
      (UriTemplate.compile one names).expand lookup ++
        (UriTemplate.compile other names).expand lookup := by
  apply String.toList_injective
  rw [String.toList_append, toList_expand, toList_expand, toList_expand, String.toList_append,
    Piece.ofChars_append (not_across seam), List.flatMap_append]

/-- The first text leaves a brace open, but the second opens one before it closes any. -/
theorem expand_append_sample :
    ('\x7b' ∉ openEnd "\x7b?a\x7d#\x7b".toList ∨ '\x7d' ∉ openFront "b\x7bc\x7d\x7d".toList) ∧
    (UriTemplate.compile ("\x7b?a\x7d#\x7b" ++ "b\x7bc\x7d\x7d") .exact).expand
      (fun _ name => some (.scalar name)) = "?a=a#\x7b" ++ "bc\x7d" := by
  have seam : '\x7b' ∉ openEnd "\x7b?a\x7d#\x7b".toList ∨
      '\x7d' ∉ openFront "b\x7bc\x7d\x7d".toList := by
    decide +kernel
  exact ⟨seam, (expand_append seam .exact _).trans (by decide +kernel)⟩

/-- A pair across the seam is an expression of the whole alone. -/
example : (UriTemplate.compile ("\x7b" ++ "a\x7d") .exact).expand
    (fun _ name => some (.scalar name)) = "a" := by
  decide +kernel

end HttpForms.Template
