import HttpForms.Bytes
import HttpForms.Text.Utf8
import HttpForms.Multipart.Failure
import HttpForms.Multipart.Token

/-!
# Boundaries

A boundary separates the sections of a body. It has one to seventy characters of a small ASCII set
and does not end in a space, so padding after it can be told apart from it. On the wire it stands
after two hyphens; a line break before those makes the delimiter that ends a section.
-/

namespace HttpForms.Multipart

/-- A character of a boundary. -/
def isBoundaryChar (c : Char) : Bool :=
  Percent.isAlphanumeric c || "'()+_,-./:=? ".toList.contains c

/-- The greatest length of a boundary. -/
def maxBoundaryLength : Nat := 70

/-- Whether a text is a boundary. -/
def isBoundary (text : String) : Bool :=
  let cs := text.toList
  !cs.isEmpty && cs.length ≤ maxBoundaryLength && cs.all isBoundaryChar && cs.getLast? != some ' '

/-- A text that may separate sections. -/
structure Boundary where
  text : String
  valid : isBoundary text = true
  deriving DecidableEq, Repr

namespace Boundary

/-- Takes a text as a boundary. -/
def ofString (text : String) : Except Failure Boundary :=
  if valid : isBoundary text = true then .ok ⟨text, valid⟩ else .error (.invalidBoundary text)

/-- The boundary behind its hyphens, as it stands at the very front of a body. -/
def dashed (b : Boundary) : Bytes :=
  Bytes.hyphen :: Bytes.hyphen :: Utf8.encode b.text

/-- The dashed boundary at the beginning of a line. -/
def delimiter (b : Boundary) : Bytes :=
  Bytes.cr :: Bytes.lf :: b.dashed

/-! ## Generated boundaries -/

/-- What a generated boundary begins with. -/
def generatedLead : String := "cartella-"

/-- How many characters follow. -/
def generatedLength : Nat := 32

/-- The letter or digit of a number below sixty-two. -/
def alphanumeric (n : Nat) : Char :=
  Char.ofNat (if n < 26 then 0x41 + n else if n < 52 then 0x47 + n else n - 4)

/-- So many letters and digits that a seed gives. -/
def generatedTail : Nat → Nat → List Char
  | 0, _ => []
  | n + 1, seed => alphanumeric (seed % 62) :: generatedTail n (seed / 62)

/-- Whether a text looks like a generated boundary. -/
def isGenerated (text : String) : Bool :=
  let lead := generatedLead.toList
  let rest := text.toList.drop lead.length
  lead.isPrefixOf text.toList && rest.length == generatedLength &&
    rest.all Percent.isAlphanumeric

section GeneratedLemmas

variable {c : Char} {text : String} {n seed : Nat}

private theorem isAlphanumeric_alphanumeric (n : Nat) :
    Percent.isAlphanumeric (alphanumeric (n % 62)) = true :=
  (by decide : ∀ i : Fin 62, Percent.isAlphanumeric (alphanumeric i) = true)
    ⟨n % 62, Nat.mod_lt n (by decide)⟩

private theorem generatedTail_all :
    (generatedTail n seed).all Percent.isAlphanumeric = true := by
  induction n generalizing seed with
  | zero => rfl
  | succ n ih => simp [generatedTail, isAlphanumeric_alphanumeric, ih]

private theorem generatedTail_length : (generatedTail n seed).length = n := by
  induction n generalizing seed with
  | zero => rfl
  | succ n ih => simp [generatedTail, ih]

/-- Characters that are no spaces make a boundary, unless there are none or too many. -/
theorem isBoundary_of_solid (nonempty : text.toList ≠ [])
    (le : text.toList.length ≤ maxBoundaryLength)
    (solid : ∀ c ∈ text.toList, isBoundaryChar c = true ∧ c ≠ ' ') : isBoundary text = true := by
  simp only [isBoundary, Bool.and_eq_true, Bool.not_eq_true', List.isEmpty_eq_false_iff,
    decide_eq_true_eq, List.all_eq_true, bne_iff_ne]
  refine ⟨⟨⟨nonempty, le⟩, fun c here => (solid c here).1⟩, fun last => ?_⟩
  exact (solid ' ' (List.mem_of_getLast? last)).2 rfl

private theorem solid_of_isAlphanumeric (letter : Percent.isAlphanumeric c = true) :
    isBoundaryChar c = true ∧ c ≠ ' ' := by
  refine ⟨by simp [isBoundaryChar, letter], ?_⟩
  rintro rfl
  exact absurd letter (by decide)

/-- What looks like a generated boundary is a boundary. -/
theorem isBoundary_of_isGenerated (generated : isGenerated text = true) :
    isBoundary text = true := by
  simp only [isGenerated, Bool.and_eq_true, beq_iff_eq, List.all_eq_true] at generated
  obtain ⟨⟨lead, length⟩, letters⟩ := generated
  obtain ⟨rest, split⟩ := List.isPrefixOf_iff_prefix.1 lead
  rw [← split, List.drop_left] at length letters
  have leadSolid : generatedLead.toList.all (fun c => isBoundaryChar c && c != ' ') = true := by
    decide +kernel
  simp only [List.all_eq_true, Bool.and_eq_true, bne_iff_ne] at leadSolid
  apply isBoundary_of_solid
  · rw [← split]
    simp [generatedLead]
  · rw [← split, List.length_append, length]
    decide
  · intro c here
    rw [← split, List.mem_append] at here
    exact here.elim (leadSolid c) fun tail => solid_of_isAlphanumeric (letters c tail)

theorem isGenerated_append (seed : Nat) :
    isGenerated (generatedLead ++ String.ofList (generatedTail generatedLength seed)) = true := by
  simp only [isGenerated, String.toList_append, String.toList_ofList, List.drop_left,
    generatedTail_length, generatedTail_all, beq_self_eq_true, Bool.and_true]
  exact List.isPrefixOf_iff_prefix.2 (List.prefix_append _ _)

end GeneratedLemmas

/-- The boundary that a seed gives. -/
def generate (seed : Nat) : Boundary where
  text := generatedLead ++ String.ofList (generatedTail generatedLength seed)
  valid := isBoundary_of_isGenerated (isGenerated_append seed)

theorem delimiter_length (b : Boundary) : b.delimiter.length = b.dashed.length + 2 := rfl

example : isBoundary "with space" = true := by decide +kernel
example : isBoundary "trailing " = false := by decide +kernel
example : isBoundary "semi;colon" = false := by decide +kernel

end Boundary

end HttpForms.Multipart
