import HttpForms.Template.Expression

/-!
# URI templates

A template is literal text with expressions between braces. Reading one never fails: braces that
hold no well-formed expression stay literal text. Expanding one never fails either, because absent
variables contribute nothing.

Reading goes in two steps. The text is cut at the leftmost pairs of braces with no brace between
them; then each such pair is an expression or becomes text again, and neighbouring text is joined.
-/

namespace HttpForms.Template

/-- One piece of a template. -/
inductive Segment
  | constant (text : String)
  | expression (e : Expression)
  deriving DecidableEq, Repr

/-- A character outside of braces, or the body of a pair of braces. -/
inductive Piece
  | char (c : Char)
  | braced (body : List Char)
  deriving DecidableEq, Repr

namespace Piece

/-- The text up to a closing brace and the text after it, unless another opening brace comes first
or none closes. -/
def closing : List Char → Option (List Char × List Char)
  | [] => none
  | c :: rest =>
    if c == '\x7d' then some ([], rest)
    else if c == '\x7b' then none
    else (closing rest).map fun (body, after) => (c :: body, after)

theorem closing_length_lt {cs body after : List Char} (found : closing cs = some (body, after)) :
    after.length < cs.length := by
  induction cs generalizing body with
  | nil => simp [closing] at found
  | cons c rest ih =>
    rw [closing] at found
    split at found
    · simp only [Option.some.injEq, Prod.mk.injEq] at found
      simp [← found.2]
    · split at found
      · simp at found
      · obtain ⟨⟨body', after'⟩, inner, same⟩ := Option.map_eq_some_iff.1 found
        simp only [Prod.mk.injEq] at same
        rw [same.2] at inner
        exact Nat.lt_succ_of_lt (ih inner)

/-- Cuts a text at its pairs of braces. -/
def ofChars : List Char → List Piece
  | [] => []
  | c :: rest =>
    if c == '\x7b' then
      match _found : closing rest with
      | some (body, after) => .braced body :: ofChars after
      | none => .char c :: ofChars rest
    else .char c :: ofChars rest
termination_by cs => cs.length
decreasing_by
  · exact Nat.lt_succ_of_lt (closing_length_lt _found)
  · exact Nat.lt_succ_self _
  · exact Nat.lt_succ_self _

end Piece

namespace Segment

/-- The segments with literal text in front of them. -/
def withText (text : List Char) (segments : List Segment) : List Segment :=
  if text.isEmpty then segments else .constant (String.ofList text) :: segments

/-- Reads the pieces from the back: the literal text at the front, and the segments after it. -/
def assemble : List Piece → List Char × List Segment
  | [] => ([], [])
  | .char c :: rest =>
    let (text, segments) := assemble rest
    (c :: text, segments)
  | .braced body :: rest =>
    let (text, segments) := assemble rest
    match Expression.ofChars? body with
    | some e => ([], .expression e :: withText text segments)
    | none => ('\x7b' :: body ++ '\x7d' :: text, segments)

/-- The segments of a text. -/
def ofChars (cs : List Char) : List Segment :=
  let (text, segments) := assemble (Piece.ofChars cs)
  withText text segments

/-- The spelling of a segment. -/
def toChars : Segment → List Char
  | .constant text => text.toList
  | .expression e => '\x7b' :: e.toChars ++ ['\x7d']

/-- The variables of a segment. -/
def vars : Segment → List Variable
  | .constant _ => []
  | .expression e => e.vars

/-- The expansion of a segment. -/
def expand (lookup : Lookup) (names : NameMatch) : Segment → String
  | .constant text => text
  | .expression e => e.expand lookup names

end Segment

end HttpForms.Template

namespace HttpForms

/-- A compiled template: its text, the segments of the text, and how its variables find values. -/
structure UriTemplate where
  text : String
  names : Template.NameMatch
  segments : List Template.Segment
  deriving DecidableEq, Repr

namespace UriTemplate

open Template

/-- Compiles a text. -/
def compile (text : String) (names : NameMatch) : UriTemplate :=
  ⟨text, names, Segment.ofChars text.toList⟩

/-- The names of all variables in order, each once. -/
def variableNames (t : UriTemplate) : List String :=
  ((t.segments.flatMap Segment.vars).map Variable.name).eraseDups

/-- The expansion of a template. -/
def expand (t : UriTemplate) (lookup : Lookup) : String :=
  String.join (t.segments.map (Segment.expand lookup t.names))

/-- The spelling that the segments give. -/
def reprint (t : UriTemplate) : String :=
  String.ofList (t.segments.flatMap Segment.toChars)

end UriTemplate

end HttpForms
