import HttpForms.Proofs.Scanner.Foresight

/-!
# What frames the sections is told as foreseen

Whatever a scanner answers when it is asked for the next step, it is the next item that it foresees,
and behind the answer it foresees the items that are left. It asks for input only where the items are
still the same, whatever that input is.

Results:

1. `Tells` — what an answer may say when these items are foreseen;
2. `nextStart_tells`, `nextPreamble_tells`, `nextHeaders_tells`, `nextClosed_tells` — the answers
   outside of sections.
-/

namespace HttpForms.Multipart.Scanner

open Marker (classify line?)

/-- What an answer may say when these items are foreseen. -/
def Tells (rest : Bytes) (items : List Item) : Except Failure Step × Scanner → Prop
  | (.ok .needInput, t) =>
    t.ended = false ∧ ∃ later, pastContent later = pastContent items ∧ t.Foresees rest later
  | (.ok (.preamble bytes), t) =>
    ∃ more, pastContent items = .preamble bytes :: more ∧
      (t.phase = .headers ∨ t.phase = .closed) ∧ t.Foresees rest more
  | (.ok (.opened headers), t) =>
    ∃ content more, pastContent items = .opened headers :: .content content :: more ∧
      t.phase = .body ∧ t.Foresees rest (.content content :: more)
  | (.ok (.epilogue bytes), t) =>
    pastContent items = [.epilogue bytes] ∧ t.phase = .done ∧ t.Foresees rest []
  | (.ok .done, t) => pastContent items = [] ∧ t.Foresees rest []
  | (.error failure, t) =>
    pastContent items = [.failed failure] ∧ t.phase = .failed failure.replay ∧ t.Foresees rest []

variable {s t : Scanner} {rest held before after : Bytes} {items : List Item} {n : Nat}
  {buffer : SearchBuffer}

/-- What is left of a section makes no difference to the next step. -/
theorem Tells.of_pastContent {result : Except Failure Step × Scanner} {items' : List Item}
    (tells : Tells rest items result) (same : pastContent items' = pastContent items) :
    Tells rest items' result := by
  match result, tells with
  | (.ok .needInput, t), h => exact ⟨h.1, h.2.imp fun _ later => ⟨later.1.trans same.symm, later.2⟩⟩
  | (.ok (.preamble _), t), h => exact h.imp fun _ more => ⟨same.trans more.1, more.2⟩
  | (.ok (.opened _), t), ⟨content, more, next, onward⟩ =>
    exact ⟨content, more, same.trans next, onward⟩
  | (.ok (.epilogue _), t), h => exact ⟨same.trans h.1, h.2⟩
  | (.ok .done, t), h => exact ⟨same.trans h.1, h.2⟩
  | (.error _, t), h => exact ⟨same.trans h.1, h.2⟩

theorem tells_fail {failure : Failure} (ended : s.ended = true → rest = [])
    (only : pastContent items = [.failed failure]) : Tells rest items (s.fail failure) :=
  ⟨only, rfl, ended, rfl⟩

/-- To wait is right while more input can come, and to fail when none can. -/
theorem tells_await {failure : Failure} (ended : s.ended = true → rest = [])
    (waits : s.ended = false → s.Foresees rest items)
    (fails : s.ended = true → items = [.failed failure]) :
    Tells rest items (s.await .needInput failure) := by
  unfold await
  split
  · rename_i finished
    rw [fails finished]
    exact tells_fail ended rfl
  · rename_i open_
    have open_ : s.ended = false := by simpa using open_
    exact ⟨open_, items, rfl, waits open_⟩

/-! ## Headers -/

theorem crlf_prefix_append {bytes : Bytes} (two : Bytes.crlf.length ≤ bytes.length) :
    Bytes.crlf <+: bytes ++ rest ↔ Bytes.crlf <+: bytes := by
  constructor
  · exact fun front => List.prefix_of_prefix_length_le front (List.prefix_append _ _) two
  · exact fun front => front.trans (List.prefix_append _ _)

theorem headerEnd_ne_nil : headerEnd ≠ [] := by decide

theorem NoHeaderEnd.find {search : Search} (none : NoHeaderEnd s.buffer rest)
    (result : s.buffer.find headerEnd = (search, buffer)) : NoHeaderEnd buffer rest := by
  obtain ⟨rfl, -⟩ := SearchBuffer.find_eq result
  intro before after split
  rcases Nat.lt_or_ge before.length search.reached with lt | ge
  · have from_ : s.buffer.scanned ≤ before.length := none before after split
    have passed : s.buffer.bytes ++ rest ≠ before ++ (headerEnd ++ after) :=
      SearchBuffer.find_passes result headerEnd_ne_nil from_ lt
    exact absurd split passed
  · exact ge

/-- The first end of headers of what has arrived is the first one of all. -/
theorem firstBlank_of_found {place : Nat} (none : NoHeaderEnd s.buffer rest)
    (found : s.buffer.find headerEnd = (.found place, buffer)) :
    (s.buffer.bytes.take place).length = place ∧
      FirstBlank (s.buffer.bytes.take place)
        (s.buffer.bytes.drop (place + headerEnd.length) ++ rest) (s.buffer.bytes ++ rest) := by
  have later := none.find found
  have le := SearchBuffer.find_found_le found headerEnd_ne_nil
  obtain ⟨rfl, -, here⟩ := SearchBuffer.find_found found
  obtain ⟨behind, split, length⟩ := exists_split_of_prefix (by omega) here
  have dropped : s.buffer.bytes.drop (place + headerEnd.length) = behind := by
    conv => lhs; rw [split]
    rw [← List.append_assoc, List.drop_left' (by simp [length])]
  refine ⟨length, ?_, fun {block _} same => ?_⟩
  · rw [dropped]
    conv => lhs; rw [split]
    simp only [List.append_assoc]
  · rw [length]
    exact later block _ same

section HeaderLemmas

variable (ended : s.ended = true → rest = []) (none : NoHeaderEnd s.buffer rest)
  (parses : s.format.Parses (.behind .opening) (s.buffer.bytes ++ rest) items)

include ended parses

theorem bareHeaders_tells (front : Bytes.crlf <+: s.buffer.bytes) :
    Tells rest items (.ok (.opened .empty), s.enter .body Bytes.crlf.length) := by
  obtain ⟨after, split⟩ := front
  rw [← split, List.append_assoc] at parses
  obtain ⟨content, more, rfl, onward⟩ := parses.of_crlf
  refine ⟨content, more, rfl, rfl, ended, SearchBuffer.Clear.restart _ _ _, ?_⟩
  have left : s.buffer.bytes.drop Bytes.crlf.length = after := by rw [← split, List.drop_left]
  simp only [enter, SearchBuffer.restart, SearchBuffer.discard, left]
  exact onward

include none

theorem shortHeaders_tells (phase : s.phase = .headers) (front : ¬ Bytes.crlf <+: s.buffer.bytes)
    (short : s.buffer.bytes.length < Bytes.crlf.length) :
    Tells rest items (s.await .needInput .unterminatedHeaders) := by
  refine tells_await ended (fun _ => ⟨ended, ?_⟩) fun finished => ?_
  · rw [phase]
    exact ⟨none, parses⟩
  · rw [ended finished, List.append_nil] at parses
    refine parses.of_noBlank front (fun block after split => ?_) (by omega)
    rw [split] at short
    simp only [List.length_append, headerEnd, Bytes.crlf, List.length_cons] at short
    omega

variable (front : ¬ Bytes.crlf <+: s.buffer.bytes ++ rest)
  (two : Bytes.crlf.length ≤ s.buffer.bytes.length)

include front two

theorem foundHeaders_tells {place : Nat} (found : s.buffer.find headerEnd = (.found place, buffer)) :
    Tells rest items (if s.headerLimit < place + headerEnd.length then
        { s with buffer := buffer }.fail (.headersTooLarge s.headerLimit)
      else
        (.ok (.opened (Headers.parse s.charset (buffer.split place).1)),
          { s with buffer := buffer }.enter .body (place + headerEnd.length))) := by
  obtain ⟨length, blank⟩ := firstBlank_of_found none found
  have le := SearchBuffer.find_found_le found headerEnd_ne_nil
  obtain ⟨rfl, -, -⟩ := SearchBuffer.find_found found
  split
  · rename_i large
    refine tells_fail ended (congrArg pastContent (parses.of_large front ?_ ?_ fun {_ _} blank' => ?_))
    · rw [List.length_append]
      omega
    · rw [List.length_append]
      exact Nat.lt_of_lt_of_le large (by omega)
    · rw [← (firstBlank_unique blank blank').1, length]
      exact large
  · rename_i fits
    obtain ⟨content, more, rfl, onward⟩ :=
      parses.of_blank front blank (by rw [length]; exact Nat.le_of_not_lt fits)
    exact ⟨content, more, rfl, rfl, ended, SearchBuffer.Clear.restart _ _ _, onward⟩

theorem absentHeaders_tells {safe : Nat} (phase : s.phase = .headers)
    (absent : s.buffer.find headerEnd = (.absent safe, buffer)) :
    Tells rest items (if s.headerLimit < buffer.bytes.length then
        { s with buffer := buffer }.fail (.headersTooLarge s.headerLimit)
      else { s with buffer := buffer }.await .needInput .unterminatedHeaders) := by
  have later := none.find absent
  obtain ⟨rfl, reached⟩ := SearchBuffer.find_absent absent
  -- An end of headers would lie behind all that has been searched.
  have late : ∀ {block after}, s.buffer.bytes ++ rest = block ++ (headerEnd ++ after) →
      s.buffer.bytes.length < block.length + headerEnd.length := by
    intro block after split
    have ge : safe ≤ block.length := later block after split
    have : 0 < headerEnd.length := by decide
    omega
  split
  · rename_i large
    refine tells_fail ended (congrArg pastContent (parses.of_large front ?_ ?_ fun {_ _} blank => ?_))
    · rw [List.length_append]
      omega
    · rw [List.length_append]
      exact Nat.lt_of_lt_of_le large (Nat.le_add_right _ _)
    · exact Nat.lt_trans large (late blank.split)
  · rename_i small
    refine tells_await ended (fun _ => ⟨ended, ?_⟩) fun finished => ?_
    · rw [show ({ s with buffer := ⟨s.buffer.bytes, safe⟩ } : Scanner).phase = .headers from phase]
      exact ⟨later, parses⟩
    · have nothing := ended finished
      subst nothing
      rw [List.append_nil] at parses front
      refine parses.of_noBlank front (fun block after split => ?_) fun _ => Nat.le_of_not_lt small
      have lt := late (by rw [List.append_nil]; exact split)
      rw [split] at lt
      simp only [List.length_append] at lt
      omega

end HeaderLemmas

theorem nextHeaders_tells (foresees : s.Foresees rest items) (phase : s.phase = .headers) :
    Tells rest items s.nextHeaders := by
  obtain ⟨ended, ahead⟩ := foresees
  rw [phase] at ahead
  obtain ⟨none, parses⟩ := ahead
  unfold nextHeaders
  split
  · rename_i front
    exact bareHeaders_tells ended parses (List.isPrefixOf_iff_prefix.1 front)
  rename_i front
  have front : ¬ Bytes.crlf <+: s.buffer.bytes := mt List.isPrefixOf_iff_prefix.2 front
  split
  · rename_i short
    exact shortHeaders_tells ended none parses phase front short
  rename_i two
  have two : Bytes.crlf.length ≤ s.buffer.bytes.length := Nat.le_of_not_lt two
  -- With two octets at hand, no later one makes a blank line of the front.
  have front : ¬ Bytes.crlf <+: s.buffer.bytes ++ rest := mt (crlf_prefix_append two).1 front
  split
  · rename_i found
    exact foundHeaders_tells ended none parses front two found
  · rename_i absent
    exact absentHeaders_tells ended none parses front two phase absent

/-! ## Epilogues -/

theorem nextEpilogue_tells (ended : s.ended = true → rest = [])
    (ahead : items = [.epilogue (held ++ (s.buffer.bytes ++ rest))]) :
    Tells rest items (s.nextEpilogue held) := by
  subst ahead
  unfold nextEpilogue
  simp only [SearchBuffer.split, SearchBuffer.discard, List.take_length, List.drop_length]
  split
  · rename_i finished
    refine ⟨?_, rfl, ended, rfl⟩
    rw [ended finished, List.append_nil]
    rfl
  · rename_i open_
    refine ⟨by simpa using open_, _, rfl, ended, ?_⟩
    simp only [List.append_assoc, List.nil_append]

theorem nextClosed_tells (foresees : s.Foresees rest items) (phase : s.phase = .closed) :
    Tells rest items s.nextClosed := by
  obtain ⟨ended, parses⟩ := foresees
  rw [phase] at parses
  unfold nextClosed
  split
  · rename_i short
    simp only [Bool.and_eq_true, Bool.not_eq_true'] at short
    refine ⟨short.2, items, rfl, ended, ?_⟩
    rw [phase]
    exact parses
  · rename_i enough
    simp only [Bool.and_eq_true, decide_eq_true_eq, Bool.not_eq_true', not_and,
      Bool.not_eq_false] at enough
    refine nextEpilogue_tells ended ?_
    simp only [enter, SearchBuffer.restart, SearchBuffer.discard, List.nil_append]
    split
    · rename_i front
      obtain ⟨after, split⟩ := List.isPrefixOf_iff_prefix.1 front
      rw [← split, List.append_assoc] at parses
      rw [← split, List.drop_left]
      exact parses.of_closing_crlf
    · rename_i notFront
      have notFront : ¬ Bytes.crlf <+: s.buffer.bytes := mt List.isPrefixOf_iff_prefix.2 notFront
      refine parses.of_closing ?_
      rcases Nat.lt_or_ge s.buffer.bytes.length Bytes.crlf.length with short | two
      · rw [ended (enough short), List.append_nil]
        exact notFront
      · exact mt (crlf_prefix_append two).1 notFront

/-! ## Preambles -/

/-- The line that is found first stands first. -/
theorem firstLine_of_found {b : Boundary} {place : Nat} {kind : LineKind} {found : SearchBuffer}
    (clear : buffer.Clear b rest) (result : buffer.find b.delimiter = (.found place, found))
    (line : (classify (found.bytes.drop (place + b.delimiter.length))).line? = some (kind, n)) :
    FirstLine b kind (buffer.bytes.take place)
      (buffer.bytes.drop (place + (b.delimiter.length + n)) ++ rest) (buffer.bytes ++ rest) := by
  have clear' := clear.find result
  obtain ⟨length, split⟩ := SearchBuffer.split_of_found result rest
  obtain ⟨rfl, -, -⟩ := SearchBuffer.find_found result
  obtain ⟨marker, after, is, rfl, behind⟩ := classify_line_iff.1 line
  refine FirstLine.of_not_stands ⟨marker, is, ?_⟩ fun earlier lt => ?_
  · simp only at behind
    rw [split, behind, ← Nat.add_assoc, ← List.drop_drop, behind, List.drop_left, List.append_assoc]
  · rw [length] at lt
    exact clear'.none _ lt

/-- What looking for a boundary line may find. -/
def Finds (b : Boundary) (buffer : SearchBuffer) (rest : Bytes) : Candidate × SearchBuffer → Prop
  | (.absent safe, found) =>
    found = ⟨buffer.bytes, safe⟩ ∧ found.Clear b rest ∧
      buffer.bytes.length < safe + b.delimiter.length
  | (.undecided place, found) =>
    found = ⟨buffer.bytes, place⟩ ∧ found.Clear b rest ∧ ∃ before cut, before.length = place ∧
      IsCutMarker cut ∧ buffer.bytes = before ++ (b.delimiter ++ cut)
  | (.opens place length, found) =>
    found.bytes = buffer.bytes ∧ FirstLine b .opening (buffer.bytes.take place)
      (buffer.bytes.drop (place + length) ++ rest) (buffer.bytes ++ rest)
  | (.closes place length, found) =>
    found.bytes = buffer.bytes ∧ FirstLine b .closing (buffer.bytes.take place)
      (buffer.bytes.drop (place + length) ++ rest) (buffer.bytes ++ rest)

theorem seekLine_finds {b : Boundary} (clear : buffer.Clear b rest) :
    Finds b buffer rest (seekLine b buffer) := by
  fun_induction seekLine b buffer with
  | case1 buffer safe found result =>
    have clear' := clear.find result
    obtain ⟨rfl, reached⟩ := SearchBuffer.find_absent result
    have := Boundary.delimiter_pos b
    exact ⟨rfl, clear', by omega⟩
  | case2 buffer place found result absent ih =>
    have same := (SearchBuffer.find_found result).1
    have onward := ih (clear.reject result (by rw [← absent, same]))
    rw [same] at onward ⊢
    exact onward
  | case3 buffer place found result undecided =>
    have clear' := clear.find result
    obtain ⟨length, split⟩ := SearchBuffer.split_of_found result []
    obtain ⟨rfl, -, -⟩ := SearchBuffer.find_found result
    simp only [List.append_nil] at split
    exact ⟨rfl, clear', _, _, length, classify_undecided_iff.1 undecided, split⟩
  | case4 buffer place found result length opens =>
    exact ⟨by rw [(SearchBuffer.find_found result).1],
      firstLine_of_found clear result (by rw [opens]; rfl)⟩
  | case5 buffer place found result closes =>
    exact ⟨by rw [(SearchBuffer.find_found result).1],
      firstLine_of_found clear result (by rw [closes]; rfl)⟩

/-- Where the text is too short for a delimiter, none stands. -/
theorem noLine_of_short {b : Boundary} {text : Bytes} {safe : Nat}
    (none : ∀ place < safe, ¬ Stands b text place) (short : text.length < safe + b.delimiter.length) :
    NoLine b text := by
  refine NoLine.of_not_stands fun place stands => ?_
  rcases Nat.lt_or_ge place safe with lt | ge
  · exact none _ lt stands
  · obtain ⟨before, after, rfl, rfl, -⟩ := stands
    simp only [List.length_append] at short
    omega

theorem nextPreamble_tells (ended : s.ended = true → rest = []) (clear : s.buffer.Clear s.boundary rest)
    (ahead : PreambleAhead s.format held (s.buffer.bytes ++ rest) items) :
    Tells rest items (s.nextPreamble held) := by
  have finds := seekLine_finds clear
  unfold nextPreamble
  rcases found : seekLine s.boundary s.buffer with ⟨candidate, buffer⟩
  rw [found] at finds
  cases candidate with
  | absent safe =>
    obtain ⟨rfl, clear', short⟩ := finds
    have inside : safe ≤ s.buffer.bytes.length := by
      have within := clear'.within
      have := Boundary.delimiter_pos s.boundary
      simp only at within
      omega
    refine tells_await ended (fun _ => ⟨ended, clear'.discard (Nat.le_refl _) inside, ?_⟩)
      fun finished => ?_
    · have later := ahead.hold clear'.none
      rw [List.take_append_of_le_length inside, List.drop_append_of_le_length inside] at later
      exact later
    · have nothing := ended finished
      subst nothing
      exact ahead.of_noLine (noLine_of_short clear'.none (by rw [List.append_nil]; exact short))
  | undecided place =>
    obtain ⟨rfl, clear', before, cut, rfl, isCut, split⟩ := finds
    refine tells_await ended (fun _ => ⟨ended, clear', ahead⟩) fun finished => ?_
    have nothing := ended finished
    subst nothing
    refine ahead.of_noLine ?_
    have none := clear'.none
    simp only [List.append_nil] at none ⊢
    rw [split] at none ⊢
    exact NoLine.of_cut isCut none
  | opens place length =>
    obtain ⟨same, line⟩ := finds
    obtain ⟨more, rfl, parses⟩ := ahead.of_firstLine line
    refine ⟨more, by simp only [pastContent, SearchBuffer.split, same], .inl rfl, ended, ?_⟩
    simp only [enter, SearchBuffer.restart, SearchBuffer.discard, same]
    exact ⟨fun _ _ _ => Nat.zero_le _, parses⟩
  | closes place length =>
    obtain ⟨same, line⟩ := finds
    obtain ⟨more, rfl, parses⟩ := ahead.of_firstLine line
    refine ⟨more, by simp only [pastContent, SearchBuffer.split, same], .inr rfl, ended, ?_⟩
    simp only [enter, SearchBuffer.restart, SearchBuffer.discard, same]
    exact parses

theorem toPreamble_tells (ended : s.ended = true → rest = [])
    (parses : s.format.Parses .front (s.buffer.bytes ++ rest) items)
    (none : ∀ kind after, ¬ OpensWith s.boundary kind after (s.buffer.bytes ++ rest)) :
    Tells rest items ((s.enter (.preamble []) 0).nextPreamble []) :=
  nextPreamble_tells ended (SearchBuffer.Clear.restart _ _ _) (PreambleAhead.of_front parses none)

/-- A text that begins with a boundary whose marker is cut off has no boundary line at all. -/
theorem noLine_of_cut_front {b : Boundary} {cut : Bytes} (isCut : IsCutMarker cut) :
    NoLine b (b.dashed ++ cut) := by
  intro kind before after line
  obtain ⟨marker, -, split⟩ := line
  have here : Bytes.lf ∈ b.dashed ++ cut := by
    rw [split]
    simp [Boundary.delimiter]
  rcases List.mem_append.1 here with inside | inside
  · exact Boundary.lf_not_mem_dashed inside
  · exact isCut.lf_not_mem inside

/-- A marker behind the boundary at the front makes a boundary line of it. -/
theorem opensWith_of_front {b : Boundary} {bytes behind : Bytes} {kind : LineKind}
    (split : b.dashed ++ behind = bytes) (line : (classify behind).line? = some (kind, n)) :
    OpensWith b kind (bytes.drop (b.dashed.length + n) ++ rest) (bytes ++ rest) := by
  obtain ⟨marker, after, is, rfl, rfl⟩ := classify_line_iff.1 line
  refine ⟨marker, is, ?_⟩
  rw [← split, ← List.drop_drop, List.drop_left, List.drop_left, List.append_assoc, List.append_assoc]

/-- Without a marker behind it, the boundary at the front makes no boundary line. -/
theorem not_opensWith_of_front {b : Boundary} {behind : Bytes} {kind : LineKind}
    (none : (classify behind).line? = none) : ¬ OpensWith b kind after (b.dashed ++ behind) := by
  intro opens
  obtain ⟨text, n, same, line, -⟩ := opens.classify
  obtain rfl := List.append_cancel_left same
  exact absurd (none.symm.trans line) (Option.some_ne_none _).symm

/-- A front that is not the boundary becomes none with more input, when the boundary had room in it. -/
theorem not_opensWith_of_short {b : Boundary} {bytes : Bytes} {kind : LineKind}
    (front : ¬ b.dashed <+: bytes) (enough : bytes.length < b.dashed.length → rest = []) :
    ¬ OpensWith b kind after (bytes ++ rest) := by
  rintro ⟨marker, -, split⟩
  rcases Nat.lt_or_ge bytes.length b.dashed.length with short | le
  · rw [enough short, List.append_nil] at split
    exact front ⟨_, split.symm⟩
  · exact front (List.prefix_of_prefix_length_le ⟨_, split.symm⟩ (List.prefix_append _ _) le)

theorem nextStart_tells (foresees : s.Foresees rest items) (phase : s.phase = .start) :
    Tells rest items s.nextStart := by
  obtain ⟨ended, parses⟩ := foresees
  rw [phase] at parses
  unfold nextStart
  split
  · rename_i short
    simp only [Bool.and_eq_true, Bool.not_eq_true'] at short
    refine ⟨short.2, items, rfl, ended, ?_⟩
    rw [phase]
    exact parses
  rename_i enough
  simp only [Bool.and_eq_true, decide_eq_true_eq, Bool.not_eq_true', not_and,
    Bool.not_eq_false] at enough
  split
  · rename_i front
    have front : ¬ s.boundary.dashed <+: s.buffer.bytes := by
      simpa [← List.isPrefixOf_iff_prefix] using front
    exact toPreamble_tells ended parses fun kind after =>
      not_opensWith_of_short front fun short => ended (enough short)
  rename_i front
  obtain ⟨behind, split⟩ : s.boundary.dashed <+: s.buffer.bytes := by
    simpa [← List.isPrefixOf_iff_prefix] using front
  have left : s.buffer.bytes.drop s.boundary.dashed.length = behind := by
    rw [← split, List.drop_left]
  have whole : s.buffer.bytes ++ rest = s.boundary.dashed ++ (behind ++ rest) := by
    rw [← split, List.append_assoc]
  rw [left]
  split
  · rename_i length opens
    obtain ⟨more, rfl, onward⟩ := parses.of_opens (opensWith_of_front split (by rw [opens]; rfl))
    exact ⟨more, rfl, .inl rfl, ended, fun _ _ _ => Nat.zero_le _, onward⟩
  · rename_i closes
    obtain ⟨more, rfl, onward⟩ := parses.of_opens (opensWith_of_front split (by rw [closes]; rfl))
    exact ⟨more, rfl, .inr rfl, ended, onward⟩
  · rename_i undecided
    refine tells_await ended (fun _ => ⟨ended, ?_⟩) fun finished => ?_
    · rw [phase]
      exact parses
    · have nothing := ended finished
      subst nothing
      rw [whole, List.append_nil] at parses
      have none : ∀ kind after, ¬ OpensWith s.boundary kind after (s.boundary.dashed ++ behind) :=
        fun _ _ => not_opensWith_of_front (by rw [undecided]; rfl)
      exact (PreambleAhead.of_front parses none).of_noLine
        (noLine_of_cut_front (classify_undecided_iff.1 undecided))
  · rename_i absent
    refine toPreamble_tells ended parses fun kind after => ?_
    rw [whole]
    exact not_opensWith_of_front (by rw [classify_absent_append absent]; rfl)

end HttpForms.Multipart.Scanner
