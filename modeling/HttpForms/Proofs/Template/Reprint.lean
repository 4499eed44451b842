import HttpForms.Proofs.Template.Segments
import HttpForms.Proofs.Template.Spelling

/-!
# Templates printed again

The segments of a template can be printed: literal text as it is, and each expression in its own
spelling between braces. Literal text may hold braces of its own, before an expression and behind it,
and printed again they must neither open nor close one. Which braces belong together is settled by the
pieces that a text is cut into, and a piece is found by where it begins: in place of one body another
one may stand, as long as it holds no brace, and every other piece is cut as before.

Results:

1. `Piece.ofChars_respelled` — with bodies spelled anew a text is cut into the same pieces;
2. `Segment.isSpelling_of_sound` — a stretch of the text spells its segment up to padding;
3. `compile_reprint` — a template that is printed again is the same template.
-/

namespace HttpForms.Template

open Variable (isBrace)
open Expression (Describes)

/-! ## Pieces -/

namespace Piece

/-- What a piece stands for. -/
def source : Piece → List Char
  | .char c => [c]
  | .braced body => braces body

/-- The piece with its expression, if it is one, in its own spelling. -/
def respelled : Piece → Piece
  | .char c => .char c
  | .braced body =>
    match Expression.ofChars? body with
    | some e => .braced e.toChars
    | none => .braced body

section PieceLemmas

variable {cs body : List Char} {pieces : List Piece} {e : Expression}

theorem source_ofChars (cs : List Char) : (ofChars cs).flatMap source = cs := by
  induction cs using ofChars.induct with
  | case1 => rw [ofChars, List.flatMap_nil]
  | case2 c rest open_ body after found ih =>
    obtain rfl := beq_iff_eq.1 open_
    rw [ofChars_braced found, List.flatMap_cons, ih, (closing_eq_some_iff.1 found).1]
    simp [source, braces]
  | case3 c rest open_ none_ ih =>
    rw [ofChars_char fun _ => none_, List.flatMap_cons, ih]
    rfl
  | case4 c rest plain ih =>
    rw [ofChars_char fun same => absurd (beq_iff_eq.2 same) plain, List.flatMap_cons, ih]
    rfl

/-- Whether a brace is closed does not depend on what stands in the braces behind it. -/
theorem closing_respelled (pieces : List Piece) :
    closing ((pieces.map respelled).flatMap source) = none ↔
      closing (pieces.flatMap source) = none := by
  induction pieces with
  | nil => exact Iff.rfl
  | cons piece pieces ih =>
    rw [List.map_cons, List.flatMap_cons, List.flatMap_cons]
    cases piece with
    | char c =>
      simp only [respelled, source, List.cons_append, List.nil_append, closing]
      split
      · simp
      split
      · simp
      · rw [Option.map_eq_none_iff, Option.map_eq_none_iff, ih]
    | braced body =>
      have opened : ∀ body rest, closing (braces body ++ rest) = none := fun body rest => by
        simp [braces, closing]
      rw [respelled]
      split <;> simp only [source, opened]

theorem free_respelled (free : ∀ c ∈ body, isBrace c = false) :
    ∃ body', respelled (.braced body) = .braced body' ∧ ∀ c ∈ body', isBrace c = false := by
  rw [respelled]
  cases read : Expression.ofChars? body with
  | none => exact ⟨body, rfl, free⟩
  | some e =>
    exact ⟨_, rfl, ((Expression.ofChars?_eq_some_iff free).1 read).free_toChars free⟩

/-- With its expressions spelled anew a text is cut into the same pieces, respelled. -/
theorem ofChars_respelled (cs : List Char) :
    ofChars (((ofChars cs).map respelled).flatMap source) = (ofChars cs).map respelled := by
  induction cs using ofChars.induct with
  | case1 =>
    rw [ofChars, List.map_nil, List.flatMap_nil, ofChars]
  | case2 c rest open_ body after found ih =>
    obtain rfl := beq_iff_eq.1 open_
    obtain ⟨-, free⟩ := closing_eq_some_iff.1 found
    obtain ⟨body', same, free'⟩ := free_respelled free
    rw [ofChars_braced found, List.map_cons, List.flatMap_cons, same]
    have whole : source (.braced body') ++ ((ofChars after).map respelled).flatMap source =
        '\x7b' :: (body' ++ '\x7d' :: ((ofChars after).map respelled).flatMap source) := by
      simp [source, braces]
    rw [whole, ofChars_braced (closing_eq_some_iff.2 ⟨rfl, free'⟩), ih]
  | case3 c rest open_ none_ ih =>
    -- No brace closes this one, and none does so in the respelled rest.
    have still : closing (((ofChars rest).map respelled).flatMap source) = none := by
      rw [closing_respelled, source_ofChars]
      exact none_
    rw [ofChars_char fun _ => none_, List.map_cons, List.flatMap_cons]
    exact (ofChars_char fun _ => still).trans (congrArg _ ih)
  | case4 c rest plain ih =>
    have other : c ≠ '\x7b' := fun same => plain (beq_iff_eq.2 same)
    rw [ofChars_char fun same => absurd same other, List.map_cons, List.flatMap_cons]
    exact (ofChars_char fun same => absurd same other).trans (congrArg _ ih)

end PieceLemmas

end Piece

/-! ## Segments -/

namespace Segment

/-- The stretch `source` is the spelling of the segment, except that lengths may be padded. -/
def IsSpelling (source : List Char) : Segment → Prop
  | .constant text => source = text.toList
  | .expression e => ∃ body, source = braces body ∧ Expression.IsSpelling body e

section SegmentLemmas

variable {cs : List Char} {pieces : List Piece}

/-- A stretch of template text spells its segment up to the padding of lengths. -/
theorem isSpelling_of_sound {span : Span} (sound : span.Sound) :
    IsSpelling span.source span.segment := by
  obtain ⟨segment, source⟩ := span
  cases segment with
  | constant text => exact sound.1
  | expression e =>
    obtain ⟨body, same, -, describes⟩ := sound
    exact ⟨body, same, describes.isSpelling⟩

/-- Text is cut at where its segments meet. -/
theorem exists_sources (cs : List Char) :
    ∃ sources, cs = sources.flatten ∧ List.Forall₂ IsSpelling sources (ofChars cs) := by
  obtain ⟨spans, covers, same⟩ := exists_covers cs
  refine ⟨spans.map Span.source, ?_, ?_⟩
  · rw [← List.flatMap_def]
    exact covers.sources_eq.symm
  · rw [← same, List.forall₂_map_left_iff, List.forall₂_map_right_iff, List.forall₂_same]
    exact fun span mem => isSpelling_of_sound (covers.sound span mem)

theorem piecewise_toChars : Piecewise toChars fun piece => piece.respelled.source where
  text _ := rfl
  char _ := rfl
  expression read := by
    rw [Piece.respelled, read]
    rfl
  rejected read := by
    rw [Piece.respelled, read]
    rfl

/-- Segments are printed piece by piece. -/
theorem toChars_ofChars (cs : List Char) :
    (ofChars cs).flatMap toChars = ((Piece.ofChars cs).map Piece.respelled).flatMap Piece.source := by
  rw [piecewise_toChars.ofChars, List.flatMap_map]

/-- Respelled pieces that hold no braces in their bodies are assembled to the same segments. -/
theorem assemble_respelled (cs : List Char) :
    assemble ((Piece.ofChars cs).map Piece.respelled) = assemble (Piece.ofChars cs) := by
  have char : ∀ {c rest}, (c = '\x7b' → Piece.closing rest = none) →
      assemble ((Piece.ofChars rest).map Piece.respelled) = assemble (Piece.ofChars rest) →
      assemble ((Piece.ofChars (c :: rest)).map Piece.respelled) =
        assemble (Piece.ofChars (c :: rest)) := by
    intro c rest open_ ih
    rw [Piece.ofChars_char open_, List.map_cons, Piece.respelled, assemble, assemble, ih]
  induction cs using Piece.ofChars.induct with
  | case1 => rw [Piece.ofChars, List.map_nil]
  | case2 c rest open_ body after found ih =>
    obtain rfl := beq_iff_eq.1 open_
    obtain ⟨-, free⟩ := Piece.closing_eq_some_iff.1 found
    rw [Piece.ofChars_braced found, List.map_cons, Piece.respelled]
    cases read : Expression.ofChars? body with
    | some e =>
      have describes := (Expression.ofChars?_eq_some_iff free).1 read
      have again := (Expression.ofChars?_eq_some_iff (describes.free_toChars free)).2 describes.toChars
      simp only
      rw [assemble_of_some again, assemble_of_some read, ih]
    | none =>
      simp only
      rw [assemble_of_none read, assemble_of_none read, ih]
  | case3 c rest open_ none_ ih => exact char (fun _ => none_) ih
  | case4 c rest other ih => exact char (fun same => absurd (beq_iff_eq.2 same) other) ih

/-- Printed segments are read as the same segments. -/
theorem ofChars_toChars (cs : List Char) : ofChars ((ofChars cs).flatMap toChars) = ofChars cs := by
  rw [toChars_ofChars, ofChars, Piece.ofChars_respelled, assemble_respelled]
  rfl

end SegmentLemmas

end Segment

/-! ## Templates -/

/-- A template that is printed from its segments and compiled again has the same segments, so it has
the same variables and expands alike. The text that is printed is the text of the template, except that
the lengths of variables may have been padded there with a plus and with zeros. -/
theorem compile_reprint (text : String) (names : NameMatch) :
    let t := UriTemplate.compile text names
    let again := UriTemplate.compile t.reprint names
    again.segments = t.segments ∧
    again.variableNames = t.variableNames ∧
    (∀ lookup, again.expand lookup = t.expand lookup) ∧
    t.reprint.toList = (t.segments.map Segment.toChars).flatten ∧
    ∃ sources, text.toList = sources.flatten ∧
      List.Forall₂ Segment.IsSpelling sources t.segments := by
  intro t again
  have printed : t.reprint.toList = (Segment.ofChars text.toList).flatMap Segment.toChars :=
    String.toList_ofList
  have same : again.segments = t.segments := by
    show Segment.ofChars t.reprint.toList = Segment.ofChars text.toList
    rw [printed, Segment.ofChars_toChars]
  refine ⟨same, ?_, fun lookup => ?_, printed.trans List.flatMap_def, Segment.exists_sources _⟩
  · rw [UriTemplate.variableNames, same]
    rfl
  · rw [UriTemplate.expand, same]
    rfl

/-- Text that ends with an open brace, names that look like modifiers, and a padded length. -/
example : (UriTemplate.compile "\x7b\x7b+a:+03,b:0**\x7d\x7d" .exact).reprint =
    "\x7b\x7b+a:3,b:0**\x7d\x7d" := by
  decide +kernel

end HttpForms.Template
