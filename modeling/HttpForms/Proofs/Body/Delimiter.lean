import HttpForms.Proofs.Body.Grammar
import HttpForms.Proofs.Text.Utf8

/-!
# Delimiters

A scanner sees a text in pieces and decides about each delimiter by the octets behind it. This module
ties its decision to the grammar: `Marker.classify` finds exactly the markers and exactly the cut-off
ones, and no later octets change its mind. A delimiter begins with the only carriage return in it, so
two of them never overlap and a look-alike hides nothing.

Results:

1. `classify_line_iff`, `classify_undecided_iff`, `classify_absent_append` — the decision;
2. `Boundary.delimiter_separate` — delimiters do not overlap;
3. `FirstLine.of_not_stands` — the first boundary line is the first delimiter that is no look-alike;
4. `lineAt_unique`, `firstLine_unique` — a text has one first boundary line, and one rest behind it.
-/

namespace HttpForms.Multipart

/-! ## Markers -/

namespace Marker

/-- The boundary line that a marker makes, with the length of the marker. -/
def line? : Marker → Option (LineKind × Nat)
  | .opens length => some (.opening, length)
  | .closes => some (.closing, closing.length)
  | .undecided | .absent => none

theorem not_padding_cr : isPadding Bytes.cr = false := by decide

theorem dropWhile_padding {padding : Bytes} (all : ∀ b ∈ padding, isPadding b = true)
    (after : Bytes) :
    (padding ++ Bytes.crlf ++ after).dropWhile isPadding = Bytes.crlf ++ after := by
  rw [List.append_assoc, List.dropWhile_append_of_pos all]
  rfl

theorem takeWhile_padding {padding : Bytes} (all : ∀ b ∈ padding, isPadding b = true)
    (after : Bytes) :
    (padding ++ Bytes.crlf ++ after).takeWhile isPadding = padding := by
  rw [List.append_assoc, List.takeWhile_append_of_pos all]
  simp [Bytes.crlf, not_padding_cr]

end Marker

open Marker (classify line? isPadding)

/-- An opening marker begins with no hyphen, so no closing one can be read in its place. -/
theorem not_closing_prefix {padding : Bytes} (all : ∀ b ∈ padding, isPadding b = true)
    (after : Bytes) : ∀ more, padding ++ Bytes.crlf ++ after ≠ Bytes.hyphen :: more := by
  intro more same
  cases padding with
  | nil => simp [Bytes.crlf, Bytes.cr, Bytes.hyphen] at same
  | cons b padding =>
    have first := all b List.mem_cons_self
    simp only [List.cons_append, List.cons.injEq] at same
    rw [same.1] at first
    exact absurd first (by decide)

theorem IsMarker.classify_append {kind : LineKind} {marker : Bytes} (is : IsMarker kind marker)
    (after : Bytes) : (classify (marker ++ after)).line? = some (kind, marker.length) := by
  cases is with
  | closing => simp [classify, Marker.closing, line?]
  | @opening padding all =>
    have dropped := Marker.dropWhile_padding all after
    have taken := Marker.takeWhile_padding all after
    have noHyphen := not_closing_prefix all after
    have solid : padding ++ Bytes.crlf ++ after ≠ [] := by simp [Bytes.crlf]
    rw [List.length_append]
    generalize padding ++ Bytes.crlf ++ after = rest at *
    have notClosing : ¬ Marker.closing <+: rest := by
      rintro ⟨more, rfl⟩
      exact noHyphen _ rfl
    simp [classify, notClosing, dropped, taken, noHyphen, solid, Bytes.crlf, line?]

theorem exists_marker_of_classify {rest : Bytes} {kind : LineKind} {n : Nat}
    (line : (classify rest).line? = some (kind, n)) :
    ∃ marker, IsMarker kind marker ∧ marker.length = n ∧ rest = marker ++ rest.drop n := by
  have whole : rest.takeWhile isPadding ++ rest.dropWhile isPadding = rest :=
    List.takeWhile_append_dropWhile
  unfold classify at line
  simp only at line
  split at line
  · simp [line?] at line
  split at line
  · rename_i front
    simp only [line?, Option.some.injEq, Prod.mk.injEq] at line
    obtain ⟨rfl, rfl⟩ := line
    obtain ⟨after, rfl⟩ := List.isPrefixOf_iff_prefix.1 front
    exact ⟨Marker.closing, .closing, rfl, by simp⟩
  split at line
  · simp [line?] at line
  split at line
  · rename_i front
    simp only [line?, Option.some.injEq, Prod.mk.injEq] at line
    obtain ⟨rfl, rfl⟩ := line
    obtain ⟨after, split⟩ := List.isPrefixOf_iff_prefix.1 front
    refine ⟨rest.takeWhile isPadding ++ Bytes.crlf,
      .opening fun b here => ?_, by simp, ?_⟩
    · exact List.all_eq_true.1 List.all_takeWhile b here
    · conv => lhs; rw [← whole, ← split, ← List.append_assoc]
      rw [← List.length_append]
      conv => rhs; rhs; rhs; rw [← whole, ← split, ← List.append_assoc]
      rw [List.drop_left]
  · simp [line?] at line

/-- A marker at the front is found, and nothing else is. -/
theorem classify_line_iff {rest : Bytes} {kind : LineKind} {n : Nat} :
    (classify rest).line? = some (kind, n) ↔
      ∃ marker after, IsMarker kind marker ∧ marker.length = n ∧ rest = marker ++ after := by
  constructor
  · intro line
    obtain ⟨marker, is, length, split⟩ := exists_marker_of_classify line
    exact ⟨marker, _, is, length, split⟩
  · rintro ⟨marker, after, is, rfl, rfl⟩
    exact is.classify_append after

theorem IsCutMarker.lf_not_mem {rest : Bytes} (cut : IsCutMarker rest) : Bytes.lf ∉ rest := by
  obtain ⟨kind, missing, more, is⟩ := cut
  intro here
  have whole : Bytes.lf ∈ (rest ++ missing).dropLast := by
    rw [List.dropLast_append_of_ne_nil more]
    exact List.mem_append_left _ here
  generalize rest ++ missing = marker at is whole
  cases is with
  | closing => simp [Marker.closing, Bytes.hyphen, Bytes.lf] at whole
  | opening all =>
    rw [List.dropLast_append_of_ne_nil (by simp [Bytes.crlf])] at whole
    rcases List.mem_append.1 whole with inside | last
    · exact absurd (all _ inside) (by decide)
    · simp [Bytes.crlf, Bytes.cr, Bytes.lf] at last

/-- What stands behind a boundary while it is open what that makes of it: nothing, the first of two
hyphens, or padding that a line break may still follow. -/
inductive IsUndecided : Bytes → Prop
  | hyphen : IsUndecided [Bytes.hyphen]
  | padding {rest : Bytes} : (∀ b ∈ rest, isPadding b = true) → IsUndecided rest
  | padded {padding : Bytes} : (∀ b ∈ padding, isPadding b = true) →
      IsUndecided (padding ++ [Bytes.cr])

theorem isUndecided_of_classify {rest : Bytes} (undecided : classify rest = .undecided) :
    IsUndecided rest := by
  have whole : rest.takeWhile isPadding ++ rest.dropWhile isPadding = rest :=
    List.takeWhile_append_dropWhile
  have padding : ∀ b ∈ rest.takeWhile isPadding, isPadding b = true :=
    List.all_eq_true.1 List.all_takeWhile
  unfold classify at undecided
  simp only [Bool.or_eq_true, beq_iff_eq] at undecided
  split at undecided
  · rename_i short
    rcases short with rfl | rfl
    · exact .padding nofun
    · exact .hyphen
  split at undecided
  · simp at undecided
  split at undecided
  · rename_i short
    rcases short with none | last
    · rw [none, List.append_nil] at whole
      exact .padding (whole ▸ padding)
    · rw [last] at whole
      rw [← whole]
      exact .padded padding
  split at undecided <;> simp at undecided

/-- More octets make a marker of it. -/
theorem IsUndecided.isCutMarker {rest : Bytes} (undecided : IsUndecided rest) : IsCutMarker rest := by
  cases undecided with
  | hyphen => exact ⟨.closing, [Bytes.hyphen], by simp, .closing⟩
  | padding all => exact ⟨.opening, Bytes.crlf, by simp [Bytes.crlf], .opening all⟩
  | @padded padding all =>
    refine ⟨.opening, [Bytes.lf], by simp, ?_⟩
    rw [List.append_assoc]
    exact .opening all

theorem isCutMarker_of_classify {rest : Bytes} (undecided : classify rest = .undecided) :
    IsCutMarker rest :=
  (isUndecided_of_classify undecided).isCutMarker

theorem classify_of_dropWhile {rest : Bytes}
    (short : rest.dropWhile isPadding = [] ∨ rest.dropWhile isPadding = [Bytes.cr]) :
    classify rest = .undecided := by
  have notClosing : ¬ Marker.closing <+: rest := by
    rintro ⟨more, rfl⟩
    have stays : (Marker.closing ++ more).dropWhile isPadding = Marker.closing ++ more := rfl
    rw [stays] at short
    simp [Marker.closing] at short
  have closes : Marker.closing.isPrefixOf rest = false := by
    rw [← Bool.not_eq_true, List.isPrefixOf_iff_prefix]
    exact notClosing
  have cut : (rest.dropWhile isPadding == [] || rest.dropWhile isPadding == [Bytes.cr]) = true := by
    rcases short with none | cr
    · rw [none]
      rfl
    · rw [cr]
      rfl
  simp only [classify, closes, cut, if_true, ite_self, Bool.false_eq_true, if_false]

theorem IsCutMarker.classify_eq {rest : Bytes} (cut : IsCutMarker rest) :
    classify rest = .undecided := by
  obtain ⟨kind, missing, more, is⟩ := cut
  -- Wherever a marker is cut, at most one octet of its end is left behind the padding.
  generalize whole : rest ++ missing = marker at is
  cases is with
  | closing =>
    rcases List.append_eq_cons_iff.1 whole with ⟨rfl, -⟩ | ⟨front, rfl, last⟩
    · rfl
    rcases List.append_eq_cons_iff.1 last.symm with ⟨rfl, -⟩ | ⟨front', rfl, none⟩
    · rfl
    · exact absurd (List.append_eq_nil_iff.1 none.symm).2 more
  | @opening padding all =>
    rcases List.append_eq_append_iff.1 whole with ⟨front, rfl, -⟩ | ⟨front, rfl, last⟩
    · apply classify_of_dropWhile
      left
      have dropped := @List.dropWhile_append_of_pos _ isPadding rest []
        fun b here => all b (List.mem_append_left _ here)
      simpa using dropped
    · apply classify_of_dropWhile
      rw [List.dropWhile_append_of_pos all]
      rcases List.append_eq_cons_iff.1 last.symm with ⟨rfl, -⟩ | ⟨front', rfl, last'⟩
      · exact .inl rfl
      rcases List.append_eq_cons_iff.1 last'.symm with ⟨rfl, -⟩ | ⟨front'', rfl, none⟩
      · exact .inr rfl
      · exact absurd (List.append_eq_nil_iff.1 none.symm).2 more

/-- Undecided is what the end of input has cut off. -/
theorem classify_undecided_iff {rest : Bytes} : classify rest = .undecided ↔ IsCutMarker rest :=
  ⟨isCutMarker_of_classify, IsCutMarker.classify_eq⟩

/-- Every decision other than to wait names a boundary line or refutes one. -/
theorem Marker.eq_absent_of {marker : Marker} (none : marker.line? = none)
    (decided : marker ≠ .undecided) : marker = .absent := by
  cases marker with
  | absent => rfl
  | undecided => exact absurd rfl decided
  | opens | closes => simp [line?] at none

/-- A look-alike stays one, whatever follows. -/
theorem classify_absent_append {rest : Bytes} (absent : classify rest = .absent) (more : Bytes) :
    classify (rest ++ more) = .absent := by
  apply Marker.eq_absent_of
  · rcases line : (classify (rest ++ more)).line? with _ | ⟨kind, n⟩
    · rfl
    obtain ⟨marker, after, is, -, split⟩ := classify_line_iff.1 line
    -- A marker that ends behind `rest` would have been cut off by its end, not refuted.
    rcases List.append_eq_append_iff.1 split with ⟨front, rfl, -⟩ | ⟨front, rfl, -⟩
    · cases front with
      | nil =>
        have found := is.classify_append []
        simp [absent, line?] at found
      | cons b front =>
        have cut : IsCutMarker rest := ⟨kind, b :: front, by simp, is⟩
        rw [cut.classify_eq] at absent
        exact Marker.noConfusion absent
    · have found := is.classify_append front
      simp [absent, line?] at found
  · intro undecided
    obtain ⟨kind, missing, nonempty, is⟩ := classify_undecided_iff.1 undecided
    have cut : IsCutMarker rest :=
      ⟨kind, more ++ missing, by simp [nonempty], by rwa [← List.append_assoc]⟩
    rw [cut.classify_eq] at absent
    exact Marker.noConfusion absent

/-! ## Delimiters -/

namespace Boundary

variable {b : Boundary}

theorem not_mem_text {c : Char} (outside : isBoundaryChar c = false) : c ∉ b.text.toList := by
  intro here
  have valid := b.valid
  simp only [isBoundary, Bool.and_eq_true, List.all_eq_true] at valid
  rw [valid.1.2 c here] at outside
  exact Bool.noConfusion outside

theorem not_mem_dashed {x : UInt8} (ascii : x.toNat < 0x80) (solid : x ≠ Bytes.hyphen)
    (outside : isBoundaryChar (Char.ofNat x.toNat) = false) : x ∉ b.dashed := by
  have text : x ∉ Utf8.encode b.text :=
    mt (Utf8.mem_encodeChars_ascii ascii).1 (not_mem_text outside)
  simp [dashed, text, solid]

theorem cr_not_mem_dashed : Bytes.cr ∉ b.dashed :=
  not_mem_dashed (by decide) (by decide) (by decide)

theorem lf_not_mem_dashed : Bytes.lf ∉ b.dashed :=
  not_mem_dashed (by decide) (by decide) (by decide)

theorem delimiter_ne_nil : b.delimiter ≠ [] := by simp [delimiter]

theorem delimiter_pos (b : Boundary) : 0 < b.delimiter.length :=
  List.length_pos_iff.2 delimiter_ne_nil

/-- Of two delimiters the later one begins behind the earlier one. -/
theorem delimiter_separate {before after before' after' : Bytes}
    (same : before ++ (b.delimiter ++ after) = before' ++ (b.delimiter ++ after'))
    (lt : before.length < before'.length) :
    ∃ gap, before' = before ++ (b.delimiter ++ gap) ∧ after = gap ++ (b.delimiter ++ after') := by
  rcases List.append_eq_append_iff.1 same with ⟨mid, rfl, later⟩ | ⟨mid, rfl, -⟩
  · rcases List.append_eq_append_iff.1 later with ⟨gap, rfl, rest⟩ | ⟨tail, cut, rest⟩
    · exact ⟨gap, rfl, rest⟩
    cases tail with
    | nil =>
      rw [List.append_nil] at cut
      exact ⟨[], by simp [cut], by simpa using rest.symm⟩
    | cons x tail =>
      cases mid with
      | nil => simp at lt
      | cons y mid =>
        -- The later delimiter would begin inside the earlier one, with a carriage return.
        simp only [delimiter, List.cons_append, List.cons.injEq] at cut rest
        obtain ⟨rfl, -⟩ := rest
        have inside : Bytes.cr ∈ Bytes.lf :: b.dashed := by
          rw [cut.2]
          simp
        rcases List.mem_cons.1 inside with same | inside
        · exact absurd same (by decide)
        · exact absurd inside cr_not_mem_dashed
  · simp only [List.length_append] at lt
    omega

end Boundary

/-! ## Lines -/

section LineLemmas

variable {b : Boundary} {kind kind' : LineKind} {before after before' after' text given : Bytes}
  {place : Nat}

/-- A delimiter begins at the place, and it is no mere look-alike. -/
def Stands (b : Boundary) (text : Bytes) (place : Nat) : Prop :=
  ∃ before rest, before.length = place ∧ text = before ++ (b.delimiter ++ rest) ∧
    classify rest ≠ .absent

theorem LineAt.stands (line : LineAt b kind before after text) : Stands b text before.length := by
  obtain ⟨marker, is, rfl⟩ := line
  refine ⟨before, marker ++ after, rfl, rfl, fun absent => ?_⟩
  have found := is.classify_append after
  simp [absent, line?] at found

/-- Lines that begin at one place are one. -/
theorem lineAt_unique (line : LineAt b kind before after text)
    (line' : LineAt b kind' before' after' text) (same : before.length = before'.length) :
    kind = kind' ∧ before = before' ∧ after = after' := by
  obtain ⟨marker, is, rfl⟩ := line
  obtain ⟨marker', is', split⟩ := line'
  obtain ⟨rfl, behind⟩ := List.append_inj split same
  have rest := List.append_cancel_left behind
  have found := is.classify_append after
  rw [rest, is'.classify_append after'] at found
  simp only [Option.some.injEq, Prod.mk.injEq] at found
  obtain ⟨rfl, length⟩ := found
  exact ⟨rfl, rfl, (List.append_inj rest length.symm).2⟩

/-- A delimiter that the end of the text cuts off stands before no other one. -/
theorem no_delimiter_after_cut {rest : Bytes} (cut : IsCutMarker rest)
    (same : before ++ (b.delimiter ++ rest) = before' ++ (b.delimiter ++ after')) :
    before'.length ≤ before.length := by
  rcases Nat.lt_or_ge before.length before'.length with lt | ge
  · obtain ⟨gap, -, rfl⟩ := Boundary.delimiter_separate same lt
    exact absurd (by simp [Boundary.delimiter]) cut.lf_not_mem
  · exact ge

theorem FirstLine.of_not_stands (line : LineAt b kind before after text)
    (none : ∀ place < before.length, ¬ Stands b text place) : FirstLine b kind before after text where
  line := line
  first {_ before' _} line' := by
    rcases Nat.lt_or_ge before'.length before.length with lt | ge
    · exact absurd line'.stands (none _ lt)
    · exact ge

theorem NoLine.of_not_stands (none : ∀ place, ¬ Stands b text place) : NoLine b text :=
  fun _ _ _ line => none _ line.stands

/-- Behind a delimiter that is cut off there is no line, and before it there is none that stands. -/
theorem NoLine.of_cut {rest : Bytes} (cut : IsCutMarker rest)
    (none : ∀ place < before.length, ¬ Stands b (before ++ (b.delimiter ++ rest)) place) :
    NoLine b (before ++ (b.delimiter ++ rest)) := by
  intro kind before' after' line
  obtain ⟨marker, is, split⟩ := line
  have le := no_delimiter_after_cut cut split
  rcases Nat.lt_or_ge before'.length before.length with lt | ge
  · exact none _ lt (LineAt.stands ⟨marker, is, split⟩)
  · obtain ⟨rfl, behind⟩ := List.append_inj split (Nat.le_antisymm ge le)
    have found := is.classify_append after'
    rw [← List.append_cancel_left behind, cut.classify_eq] at found
    simp [line?] at found

theorem firstLine_unique (line : FirstLine b kind before after text)
    (line' : FirstLine b kind' before' after' text) :
    kind = kind' ∧ before = before' ∧ after = after' :=
  lineAt_unique line.line line'.line (Nat.le_antisymm (line.first line'.line) (line'.first line.line))

end LineLemmas

end HttpForms.Multipart
