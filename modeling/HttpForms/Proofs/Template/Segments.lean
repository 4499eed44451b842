import Mathlib.Data.List.Chain
import HttpForms.Template.Basic
import HttpForms.Proofs.Template.Grammar

/-!
# What a compiled template holds

A template text is covered by spans: each segment with the stretch of text it stands for. The pairs of
braces with no brace between them are what may become an expression. Two of them never overlap
(`pairs_apart`), so the leftmost ones that do not overlap are all of them, and it can be asked of each
by itself whether it is an expression. It is one exactly if the grammar describes its body. Everything
else is text, and there is only one way to cut it, because text never stands next to text.

Results:

1. `Covers.unique` — a text has no two covers;
2. `exists_covers` — the segments that are read cover the text;
3. `Segment.Piecewise.ofChars` — what is written of segments is written piece by piece;
4. `compile_segments_iff` — the segments of a compiled template are the one cover of its text.
-/

namespace HttpForms.Template

open Variable (isBrace)
open Expression (Describes)

/-! ## Pairs of braces -/

/-- A pair of braces around a body. -/
def braces (body : List Char) : List Char :=
  '\x7b' :: (body ++ ['\x7d'])

/-- Behind `before` the text has a pair of braces with no brace in its body. -/
structure PairAt (text before body : List Char) : Prop where
  here : ∃ after, text = before ++ braces body ++ after
  free : ∀ c ∈ body, isBrace c = false

section PairLemmas

variable {text before before' body body' after : List Char}

theorem braces_injective (same : braces body = braces body') : body = body' :=
  List.append_cancel_right (List.cons.inj same).2

/-- A pair that starts behind another one's start starts behind its end. -/
theorem pairs_apart (first : PairAt text before body) (second : PairAt text before' body')
    (later : before.length < before'.length) :
    ∃ between, before' = before ++ braces body ++ between := by
  obtain ⟨after, same⟩ := first.here
  obtain ⟨after', same'⟩ := second.here
  rw [same, List.append_assoc, List.append_assoc] at same'
  rcases List.append_eq_append_iff.1 same' with ⟨gap, rfl, rest⟩ | ⟨gap, rfl, -⟩
  · cases gap with
    | nil => simp at later
    | cons c gap =>
      simp only [braces, List.cons_append, List.cons.injEq, List.append_assoc,
        List.nil_append] at rest
      obtain ⟨rfl, rest⟩ := rest
      -- The second opening brace is not in the first body, nor is it the brace that closes it.
      rcases List.append_eq_append_iff.1 rest with ⟨between, rfl, tail⟩ | ⟨inner, rfl, tail⟩
      · cases between with
        | nil => simp at tail
        | cons c between =>
          obtain ⟨rfl, -⟩ := List.cons.inj tail
          exact ⟨between, by simp [braces]⟩
      · cases inner with
        | nil => simp at tail
        | cons c inner =>
          obtain ⟨rfl, -⟩ := List.cons.inj tail
          exact absurd (first.free '\x7b' (by simp)) (by decide)
  · rw [List.length_append] at later
    omega

end PairLemmas

/-! ## Covers -/

/-- A segment and the stretch of template text it stands for. -/
structure Span where
  segment : Segment
  source : List Char

namespace Span

/-- The span of literal text. -/
def ofText (text : List Char) : Span :=
  ⟨.constant (String.ofList text), text⟩

/-- The span of an expression with the body it is read from. -/
def ofBody (body : List Char) (e : Expression) : Span :=
  ⟨.expression e, braces body⟩

/-- Literal text stands for itself and is not empty. An expression stands for a pair of braces with no
brace between them, and the grammar describes it. -/
def Sound (span : Span) : Prop :=
  match span.segment with
  | .constant text => span.source = text.toList ∧ span.source ≠ []
  | .expression e =>
    ∃ body, span.source = braces body ∧ (∀ c ∈ body, isBrace c = false) ∧ Describes body e

/-- Two neighbours are not both literal text. -/
def Apart (one other : Span) : Prop :=
  ¬ ((∃ text, one.segment = .constant text) ∧ ∃ text, other.segment = .constant text)

theorem Sound.source_ne_nil {span : Span} (sound : span.Sound) : span.source ≠ [] := by
  obtain ⟨segment, source⟩ := span
  cases segment with
  | constant => exact sound.2
  | expression =>
    obtain ⟨body, same, -⟩ := sound
    exact same.trans_ne (List.cons_ne_nil _ _)

/-- A sound span is one of literal text or one of a described body. -/
theorem Sound.cases {span : Span} (sound : span.Sound) :
    (∃ text, text ≠ [] ∧ span = ofText text) ∨
      ∃ body e, (∀ c ∈ body, isBrace c = false) ∧ Describes body e ∧ span = ofBody body e := by
  obtain ⟨segment, source⟩ := span
  cases segment with
  | constant text =>
    obtain ⟨rfl, some_⟩ := sound
    exact .inl ⟨text.toList, some_, by simp [ofText]⟩
  | expression e =>
    obtain ⟨body, rfl, free, describes⟩ := sound
    exact .inr ⟨body, e, free, describes, rfl⟩

theorem sound_ofText {text : List Char} (some_ : text ≠ []) : (ofText text).Sound :=
  ⟨String.toList_ofList.symm, some_⟩

theorem sound_ofBody_iff {body : List Char} {e : Expression} :
    (ofBody body e).Sound ↔ (∀ c ∈ body, isBrace c = false) ∧ Describes body e := by
  constructor
  · rintro ⟨body', same, free, describes⟩
    obtain rfl := braces_injective same
    exact ⟨free, describes⟩
  · rintro ⟨free, describes⟩
    exact ⟨body, rfl, free, describes⟩

theorem not_apart_ofText (s s' : List Char) : ¬ Apart (ofText s) (ofText s') :=
  fun apart => apart ⟨⟨_, rfl⟩, ⟨_, rfl⟩⟩

theorem apart_ofBody_left (body : List Char) (e : Expression) (span : Span) :
    Apart (ofBody body e) span :=
  fun both => by obtain ⟨⟨text, is⟩, -⟩ := both; cases is

theorem apart_ofBody_right (span : Span) (body : List Char) (e : Expression) :
    Apart span (ofBody body e) :=
  fun both => by obtain ⟨-, text, is⟩ := both; cases is

end Span

/-- The text that spans stand for together. -/
def sources (spans : List Span) : List Char :=
  spans.flatMap Span.source

/-- The spans account for all of the text, and every pair of braces that the grammar describes is one
of them, in its place. -/
structure Covers (spans : List Span) (text : List Char) : Prop where
  sources_eq : sources spans = text
  sound : ∀ span ∈ spans, span.Sound
  apart : spans.IsChain Span.Apart
  complete : ∀ before body e, PairAt text before body → Describes body e →
    ∃ earlier later, spans = earlier ++ Span.ofBody body e :: later ∧ sources earlier = before

/-- The segments come from a cover of the text. -/
def Compiles (text : List Char) (segments : List Segment) : Prop :=
  ∃ spans, Covers spans text ∧ spans.map Span.segment = segments

section Sources

variable {text body : List Char} {e : Expression} {spans earlier earlier' later later' : List Span}

@[simp] theorem sources_nil : sources [] = [] :=
  rfl

@[simp] theorem sources_cons (span : Span) : sources (span :: later) = span.source ++ sources later :=
  List.flatMap_cons

@[simp] theorem sources_append : sources (earlier ++ later) = sources earlier ++ sources later :=
  List.flatMap_append

theorem eq_nil_of_sources (sound : ∀ span ∈ spans, span.Sound) (nothing : sources spans = []) :
    spans = [] := by
  cases spans with
  | nil => rfl
  | cons span later =>
    exact absurd (List.append_eq_nil_iff.1 nothing).1 (sound span List.mem_cons_self).source_ne_nil

/-- How far a row of spans is gone through shows in the text that is behind. -/
theorem eq_of_sources (sound : ∀ span ∈ earlier ++ later, span.Sound)
    (same : earlier ++ later = earlier' ++ later') (behind : sources earlier = sources earlier') :
    earlier = earlier' ∧ later = later' := by
  rcases List.append_eq_append_iff.1 same with ⟨gap, rfl, rfl⟩ | ⟨gap, rfl, rfl⟩
  · have nothing : gap = [] :=
      eq_nil_of_sources (fun span mem => sound span (by simp [mem])) (by simpa using behind.symm)
    subst nothing
    simp
  · have nothing : gap = [] :=
      eq_nil_of_sources (fun span mem => sound span (by simp [mem])) (by simpa using behind)
    subst nothing
    simp

end Sources

/-! ## One cover for each text -/

section Unique

variable {text body s s' extra : List Char} {e : Expression}
  {spans spans' earlier later later' : List Span}

theorem Covers.pairAt (covers : Covers (earlier ++ Span.ofBody body e :: later) text) :
    PairAt text (sources earlier) body ∧ Describes body e := by
  obtain ⟨free, describes⟩ :=
    Span.sound_ofBody_iff.1 (covers.sound (Span.ofBody body e) (by simp))
  refine ⟨⟨⟨sources later, ?_⟩, free⟩, describes⟩
  rw [← covers.sources_eq]
  simp [Span.ofBody]

/-- Where one cover has an expression every cover has it. -/
theorem Covers.same_body (covers : Covers (earlier ++ Span.ofBody body e :: later) text)
    (covers' : Covers (earlier ++ later') text) : ∃ rest, later' = Span.ofBody body e :: rest := by
  obtain ⟨pair, describes⟩ := covers.pairAt
  obtain ⟨earlier', rest, same, behind⟩ := covers'.complete _ _ _ pair describes
  exact ⟨rest, (eq_of_sources covers'.sound same behind.symm).2⟩

/-- Literal text of one cover ends where it ends in every cover: either the whole text ends there or
an expression follows. -/
theorem Covers.text_le (covers : Covers (earlier ++ Span.ofText s :: later) text)
    (covers' : Covers (earlier ++ Span.ofText s' :: later') text) : s'.length ≤ s.length := by
  cases later with
  | nil =>
    have lengths := congrArg List.length (covers'.sources_eq.trans covers.sources_eq.symm)
    simp only [sources_append, sources_cons, sources_nil, Span.ofText, List.length_append,
      List.length_nil] at lengths
    omega
  | cons span later =>
    rcases (covers.sound span (by simp)).cases with ⟨t, -, rfl⟩ | ⟨body, e, -, -, rfl⟩
    · have apart := (List.isChain_append_cons_cons.1 covers.apart).2.1
      exact absurd apart (Span.not_apart_ofText s t)
    · have covers : Covers ((earlier ++ [Span.ofText s]) ++ Span.ofBody body e :: later) text := by
        simpa using covers
      obtain ⟨pair, describes⟩ := covers.pairAt
      obtain ⟨before, after, same, behind⟩ := covers'.complete _ _ _ pair describes
      have lengths := congrArg List.length behind
      rcases List.append_eq_append_iff.1 same with ⟨gap, rfl, rest⟩ | ⟨gap, rfl, -⟩
      · cases gap with
        | nil => cases (List.cons.inj rest).1
        | cons first gap =>
          obtain ⟨rfl, -⟩ := List.cons.inj rest
          simp only [sources_append, sources_cons, sources_nil, Span.ofText, List.length_append,
            List.length_nil] at lengths
          omega
      · have some_ := List.length_pos_iff.2 (covers.sound (Span.ofText s) (by simp)).source_ne_nil
        simp only [sources_append, sources_cons, sources_nil, Span.ofText, List.length_append,
          List.length_nil] at lengths some_
        omega

/-- Covers that agree so far agree in the rest. -/
theorem Covers.same_rest (covers : Covers (earlier ++ later) text)
    (covers' : Covers (earlier ++ later') text) : later = later' := by
  induction later generalizing earlier later' with
  | nil =>
    have rest : sources later' = [] := by
      have same := covers'.sources_eq.trans covers.sources_eq.symm
      simpa using same
    exact (eq_nil_of_sources (fun span mem => covers'.sound span (by simp [mem])) rest).symm
  | cons span later ih =>
    have next : ∃ rest, later' = span :: rest := by
      rcases (covers.sound span (by simp)).cases with ⟨s, some_, rfl⟩ | ⟨body, e, -, -, rfl⟩
      · cases later' with
        | nil =>
          have same := covers.sources_eq.trans covers'.sources_eq.symm
          simp [Span.ofText, some_] at same
        | cons span' later' =>
          rcases (covers'.sound span' (by simp)).cases with ⟨s', -, rfl⟩ | ⟨body, e, -, -, rfl⟩
          · have same := covers.sources_eq.trans covers'.sources_eq.symm
            rw [sources_append, sources_append, List.append_cancel_left_eq] at same
            have inj := List.append_inj_left same
              (Nat.le_antisymm (covers'.text_le covers) (covers.text_le covers'))
            exact ⟨later', by rw [show s = s' from inj]⟩
          · obtain ⟨rest, same⟩ := covers'.same_body covers
            cases (List.cons.inj same).1
      · exact covers.same_body covers'
    obtain ⟨rest, rfl⟩ := next
    have covers : Covers ((earlier ++ [span]) ++ later) text := by simpa using covers
    have covers' : Covers ((earlier ++ [span]) ++ rest) text := by simpa using covers'
    rw [ih covers covers']

/-- A text has no two covers. -/
theorem Covers.unique (covers : Covers spans text) (covers' : Covers spans' text) : spans = spans' := by
  have begun : Covers ([] ++ spans) text := covers
  exact begun.same_rest covers'

end Unique

/-! ## Cutting at the braces -/

namespace Piece

variable {c : Char} {rest body after : List Char}

theorem closing_eq_some_iff :
    closing rest = some (body, after) ↔
      rest = body ++ '\x7d' :: after ∧ ∀ c ∈ body, isBrace c = false := by
  induction rest generalizing body with
  | nil => simp [closing]
  | cons c rest ih =>
    rw [closing]
    cases body with
    | nil => by_cases close : c = '\x7d' <;> simp [close]
    | cons b body =>
      by_cases brace : isBrace c = true
      · constructor
        · intro found
          simp only [isBrace, Bool.or_eq_true] at brace
          rcases brace with open_ | close
          · rw [beq_iff_eq.1 open_] at found
            simp at found
          · simp [close] at found
        · rintro ⟨same, free⟩
          rw [(List.cons.inj same).1, free b List.mem_cons_self] at brace
          cases brace
      · obtain ⟨open_, close⟩ : c ≠ '\x7b' ∧ c ≠ '\x7d' := by simpa [isBrace] using brace
        simp only [beq_iff_eq, close, open_, if_false, Option.map_eq_some_iff, Prod.exists,
          Prod.mk.injEq, List.cons.injEq, List.cons_append, List.forall_mem_cons]
        constructor
        · rintro ⟨x, y, found, ⟨rfl, rfl⟩, rfl⟩
          exact ⟨⟨rfl, (ih.1 found).1⟩, by simpa using brace, (ih.1 found).2⟩
        · rintro ⟨⟨rfl, same⟩, -, free⟩
          exact ⟨body, after, ih.2 ⟨same, free⟩, ⟨rfl, rfl⟩, rfl⟩

theorem ofChars_braced (found : closing rest = some (body, after)) :
    ofChars ('\x7b' :: rest) = .braced body :: ofChars after := by
  rw [ofChars, if_pos (beq_self_eq_true _)]
  split
  · rename_i found'
    rw [found, Option.some.injEq, Prod.mk.injEq] at found'
    rw [found'.1, found'.2]
  · rename_i none_
    rw [found] at none_
    cases none_

theorem ofChars_char (open_ : c = '\x7b' → closing rest = none) :
    ofChars (c :: rest) = .char c :: ofChars rest := by
  rw [ofChars]
  split
  · rename_i brace
    split
    · rename_i found
      rw [open_ (beq_iff_eq.1 brace)] at found
      cases found
    · rfl
  · rfl

theorem not_pairAt_nil (open_ : c = '\x7b' → closing rest = none) :
    ¬ PairAt (c :: rest) [] body := by
  rintro ⟨⟨after, same⟩, free⟩
  simp only [braces, List.nil_append, List.cons_append, List.append_assoc, List.cons.injEq] at same
  have found := closing_eq_some_iff.2 ⟨same.2, free⟩
  rw [open_ same.1] at found
  cases found

end Piece

namespace Segment

variable {body : List Char} {e : Expression} {pieces : List Piece}

theorem assemble_of_some (read : Expression.ofChars? body = some e) :
    assemble (.braced body :: pieces) =
      ([], .expression e :: withText (assemble pieces).1 (assemble pieces).2) := by
  simp [assemble, read]

theorem assemble_of_none (read : Expression.ofChars? body = none) :
    assemble (.braced body :: pieces) = (braces body ++ (assemble pieces).1, (assemble pieces).2) := by
  simp [assemble, read, braces]

/-- What is written of a segment is what is written of the pieces that it is made of. -/
structure Piecewise (write : Segment → List Char) (part : Piece → List Char) : Prop where
  text : ∀ text, write (.constant text) = text.toList
  char : ∀ c, part (.char c) = [c]
  expression : ∀ {body e}, Expression.ofChars? body = some e →
    part (.braced body) = write (.expression e)
  rejected : ∀ {body}, Expression.ofChars? body = none → part (.braced body) = braces body

section Writing

variable {write : Segment → List Char} {part : Piece → List Char}

theorem Piecewise.withText (piecewise : Piecewise write part) (text : List Char)
    (segments : List Segment) :
    (withText text segments).flatMap write = text ++ segments.flatMap write := by
  cases text with
  | nil => rfl
  | cons c text => simp [Segment.withText, piecewise.text]

theorem Piecewise.assemble (piecewise : Piecewise write part) (pieces : List Piece) :
    (assemble pieces).1 ++ (assemble pieces).2.flatMap write = pieces.flatMap part := by
  induction pieces with
  | nil => rfl
  | cons piece pieces ih =>
    rw [List.flatMap_cons, ← ih]
    cases piece with
    | char c =>
      rw [piecewise.char]
      rfl
    | braced body =>
      cases read : Expression.ofChars? body with
      | some e =>
        rw [assemble_of_some read, piecewise.expression read, List.nil_append, List.flatMap_cons,
          piecewise.withText]
      | none => rw [assemble_of_none read, piecewise.rejected read, List.append_assoc]

/-- The segments of a text are written piece by piece. -/
theorem Piecewise.ofChars (piecewise : Piecewise write part) (cs : List Char) :
    (ofChars cs).flatMap write = (Piece.ofChars cs).flatMap part := by
  rw [Segment.ofChars, piecewise.withText, piecewise.assemble]

end Writing

end Segment

/-! ## Joining what is left over -/

/-- Spans with literal text in front of them. -/
def Span.withText (front : List Char) (spans : List Span) : List Span :=
  if front.isEmpty then spans else ofText front :: spans

/-- The text `cs` is read as literal text that nothing closes yet, and the spans after it. -/
structure Joins (cs front : List Char) (spans : List Span) : Prop where
  sources_eq : front ++ sources spans = cs
  sound : ∀ span ∈ spans, span.Sound
  apart : spans.IsChain Span.Apart
  head : ∀ span ∈ spans.head?, ∀ text, Span.Apart (.ofText text) span
  complete : ∀ before body e, PairAt cs before body → Describes body e →
    ∃ earlier later, spans = earlier ++ Span.ofBody body e :: later ∧ front ++ sources earlier = before

section JoinLemmas

variable {cs front body before body' after : List Char} {c : Char} {e : Expression} {spans : List Span}

theorem sources_withText (front : List Char) (spans : List Span) :
    sources (Span.withText front spans) = front ++ sources spans := by
  cases front <;> simp [Span.withText, Span.ofText]

theorem map_segment_withText (front : List Char) (spans : List Span) :
    (Span.withText front spans).map Span.segment =
      Segment.withText front (spans.map Span.segment) := by
  cases front <;> simp [Span.withText, Segment.withText, Span.ofText]

theorem withText_append (front : List Char) (earlier later : List Span) :
    Span.withText front (earlier ++ later) = Span.withText front earlier ++ later := by
  cases front <;> simp [Span.withText]

/-- Once the text in front is closed the spans are a cover. -/
theorem Joins.covers (joins : Joins cs front spans) : Covers (Span.withText front spans) cs where
  sources_eq := by rw [sources_withText, joins.sources_eq]
  sound := by
    cases front with
    | nil => exact joins.sound
    | cons c front =>
      exact List.forall_mem_cons.2 ⟨Span.sound_ofText (List.cons_ne_nil _ _), joins.sound⟩
  apart := by
    cases front with
    | nil => exact joins.apart
    | cons c front => exact List.isChain_cons.2 ⟨fun span here => joins.head span here _, joins.apart⟩
  complete before body e pair describes := by
    obtain ⟨earlier, later, rfl, behind⟩ := joins.complete before body e pair describes
    exact ⟨Span.withText front earlier, later, withText_append _ _ _, by rw [sources_withText, behind]⟩

theorem Joins.nil : Joins [] [] [] where
  sources_eq := rfl
  sound := by simp
  apart := .nil
  head := by simp
  complete before body e pair := by
    obtain ⟨⟨after, same⟩, -⟩ := pair
    simp [braces] at same

/-- A character at which no pair starts goes to the text. -/
theorem Joins.char (none_ : ∀ body, ¬ PairAt (c :: cs) [] body) (joins : Joins cs front spans) :
    Joins (c :: cs) (c :: front) spans where
  sources_eq := by rw [List.cons_append, joins.sources_eq]
  sound := joins.sound
  apart := joins.apart
  head := joins.head
  complete before body e pair describes := by
    cases before with
    | nil => exact absurd pair (none_ body)
    | cons d before =>
      obtain ⟨⟨after, same⟩, free⟩ := pair
      obtain ⟨rfl, rest⟩ := List.cons.inj same
      obtain ⟨earlier, later, rfl, rfl⟩ := joins.complete before body e ⟨⟨after, rest⟩, free⟩ describes
      exact ⟨earlier, later, rfl, rfl⟩

/-- A pair in a text that starts with one is that one or stands behind it. -/
theorem PairAt.behind (free : ∀ c ∈ body, isBrace c = false)
    (pair : PairAt (braces body ++ after) before body') :
    (before = [] ∧ body' = body) ∨
      ∃ between, before = braces body ++ between ∧ PairAt after between body' := by
  have first : PairAt (braces body ++ after) [] body := ⟨⟨after, rfl⟩, free⟩
  obtain ⟨⟨rest, same⟩, free'⟩ := pair
  cases before with
  | nil =>
    -- Both bodies are what stands before the first closing brace.
    have same : body ++ '\x7d' :: after = body' ++ '\x7d' :: rest := by simpa [braces] using same
    have found := Piece.closing_eq_some_iff.2 ⟨same, free'⟩
    rw [Piece.closing_eq_some_iff.2 ⟨rfl, free⟩, Option.some.injEq, Prod.mk.injEq] at found
    exact .inl ⟨rfl, found.1.symm⟩
  | cons d before =>
    obtain ⟨between, apart⟩ := pairs_apart first ⟨⟨rest, same⟩, free'⟩ (by simp)
    rw [List.nil_append] at apart
    refine .inr ⟨between, apart, ⟨rest, ?_⟩, free'⟩
    simpa [apart] using same

/-- A pair that is no expression goes to the text. -/
theorem Joins.literal (free : ∀ c ∈ body, isBrace c = false) (none_ : ∀ e, ¬ Describes body e)
    (joins : Joins after front spans) :
    Joins (braces body ++ after) (braces body ++ front) spans where
  sources_eq := by rw [List.append_assoc, joins.sources_eq]
  sound := joins.sound
  apart := joins.apart
  head := joins.head
  complete before body' e pair describes := by
    rcases pair.behind free with ⟨-, rfl⟩ | ⟨between, rfl, next⟩
    · exact absurd describes (none_ e)
    · obtain ⟨earlier, later, rfl, rfl⟩ := joins.complete between body' e next describes
      exact ⟨earlier, later, rfl, List.append_assoc _ _ _⟩

/-- A pair that is an expression closes the text behind it and leaves none in front. -/
theorem Joins.expression (free : ∀ c ∈ body, isBrace c = false) (describes : Describes body e)
    (joins : Joins after front spans) :
    Joins (braces body ++ after) [] (Span.ofBody body e :: Span.withText front spans) where
  sources_eq := by
    rw [List.nil_append, sources_cons, joins.covers.sources_eq]
    rfl
  sound := List.forall_mem_cons.2 ⟨Span.sound_ofBody_iff.2 ⟨free, describes⟩, joins.covers.sound⟩
  apart := List.isChain_cons.2 ⟨fun span _ => Span.apart_ofBody_left _ _ _, joins.covers.apart⟩
  head := by
    intro span here text
    obtain rfl := Option.some.inj here
    exact Span.apart_ofBody_right _ _ _
  complete before body' e' pair describes' := by
    rcases pair.behind free with ⟨rfl, rfl⟩ | ⟨between, rfl, next⟩
    · have same := ((Expression.ofChars?_eq_some_iff free).2 describes).symm.trans
        ((Expression.ofChars?_eq_some_iff free).2 describes')
      obtain rfl := Option.some.inj same
      exact ⟨[], _, rfl, rfl⟩
    · obtain ⟨earlier, later, same, rfl⟩ := joins.covers.complete between body' e' next describes'
      exact ⟨Span.ofBody body e :: earlier, later, by rw [same]; rfl, by simp [Span.ofBody]⟩

end JoinLemmas

/-- The pieces of a text are assembled to segments that join to a cover of it. -/
theorem exists_joins (cs : List Char) :
    ∃ spans, Joins cs (Segment.assemble (Piece.ofChars cs)).1 spans ∧
      spans.map Span.segment = (Segment.assemble (Piece.ofChars cs)).2 := by
  have char : ∀ {c rest}, (c = '\x7b' → Piece.closing rest = none) →
      (∃ spans, Joins rest (Segment.assemble (Piece.ofChars rest)).1 spans ∧
        spans.map Span.segment = (Segment.assemble (Piece.ofChars rest)).2) →
      ∃ spans, Joins (c :: rest) (Segment.assemble (Piece.ofChars (c :: rest))).1 spans ∧
        spans.map Span.segment = (Segment.assemble (Piece.ofChars (c :: rest))).2 := by
    rintro c rest open_ ⟨spans, joins, segments⟩
    rw [Piece.ofChars_char open_]
    exact ⟨spans, joins.char fun body => Piece.not_pairAt_nil open_, segments⟩
  induction cs using Piece.ofChars.induct with
  | case1 =>
    rw [Piece.ofChars]
    exact ⟨[], .nil, rfl⟩
  | case2 c rest open_ body after found ih =>
    obtain rfl := beq_iff_eq.1 open_
    obtain ⟨spans, joins, segments⟩ := ih
    obtain ⟨rfl, free⟩ := Piece.closing_eq_some_iff.1 found
    have whole : '\x7b' :: (body ++ '\x7d' :: after) = braces body ++ after := by simp [braces]
    rw [Piece.ofChars_braced found, whole]
    cases read : Expression.ofChars? body with
    | some e =>
      rw [Segment.assemble_of_some read]
      have describes := (Expression.ofChars?_eq_some_iff free).1 read
      exact ⟨_, joins.expression free describes, by simp [map_segment_withText, segments, Span.ofBody]⟩
    | none =>
      rw [Segment.assemble_of_none read]
      have none_ : ∀ e, ¬ Describes body e := by
        intro e describes
        rw [(Expression.ofChars?_eq_some_iff free).2 describes] at read
        cases read
      exact ⟨spans, joins.literal free none_, segments⟩
  | case3 c rest open_ none_ ih => exact char (fun _ => none_) ih
  | case4 c rest other ih => exact char (fun same => absurd (beq_iff_eq.2 same) other) ih

/-- The segments that are read cover the text. -/
theorem exists_covers (cs : List Char) : Compiles cs (Segment.ofChars cs) := by
  obtain ⟨spans, joins, segments⟩ := exists_joins cs
  refine ⟨_, joins.covers, ?_⟩
  rw [map_segment_withText, segments]
  rfl

/-- The segments of a compiled template are those of the one cover of its text: each pair of braces
that the grammar describes is the expression it describes, and all else stands word for word in
literal text, none of it empty and no two pieces of it side by side. -/
theorem compile_segments_iff (text : String) (names : NameMatch) (segments : List Segment) :
    (UriTemplate.compile text names).segments = segments ↔ Compiles text.toList segments := by
  constructor
  · rintro rfl
    exact exists_covers text.toList
  · rintro ⟨spans, covers, rfl⟩
    obtain ⟨spans', covers', same⟩ := exists_covers text.toList
    rw [covers.unique covers']
    exact same.symm

example : (UriTemplate.compile "\x7ba\x7b,\x7d\x7bx\x7d\x7d" .exact).segments =
    [.constant "\x7ba\x7b,\x7d", .expression ⟨.simple, [.plain "x"]⟩, .constant "\x7d"] := by
  decide +kernel

end HttpForms.Template
