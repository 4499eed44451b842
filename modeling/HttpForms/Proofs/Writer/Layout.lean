import HttpForms.Multipart.Visitor
import HttpForms.Proofs.Body.Parsing
import HttpForms.Proofs.Headers.Block
import HttpForms.Proofs.Reader.Sections

/-!
# The layout of a written body

What a writer refuses is just what would be read otherwise: with no delimiter in a content, the
first one behind it is the one the writer puts there, and with no break in a header the blank line
behind the headers is the first one. So a body that is written parses as the parts that were given.

Results:

1. `firstLine_of_accepted` — content ends where the writer ends it;
2. `parses_of_written` — a written body parses as its preamble, its parts and its epilogue;
3. `reread_of_tidy` — headers that need no trimming are the same when they are read.
-/

namespace HttpForms.Multipart

/-! ## What is read of headers -/

/-- The lines of headers, each with its break. -/
def Headers.render (h : Headers) : Bytes :=
  block (h.entries.map headerLine)

/-- The headers that are read where these were written. -/
def Headers.reread (h : Headers) : Headers :=
  ⟨h.entries.filterMap fun header => Headers.readLine .utf8 (headerLine header)⟩

/-- The part that is read where this one was written. -/
def Part.reread (part : Part) : Part :=
  ⟨part.headers.reread, part.content⟩

/-- Headers with names, none of which holds a colon, and without blanks around names and values. -/
def Headers.Tidy (h : Headers) : Prop :=
  ∀ header ∈ h.entries, header.1 ≠ "" ∧ ':' ∉ header.1.toList ∧ Text.trim header.1 = header.1 ∧
    Text.trim header.2 = header.2

/-! ## Layout -/

/-- What stands behind the boundary of a line. -/
def lineMarker : LineKind → Bytes
  | .opening => Bytes.crlf
  | .closing => Marker.closing

/-- The line before the parts that are left. -/
def lineKind : List Part → LineKind
  | [] => .closing
  | _ :: _ => .opening

/-- What stands behind the boundary line before the parts that are left. -/
def behindLine (b : Boundary) (epilogue : Bytes) : List Part → Bytes
  | [] => Bytes.crlf ++ epilogue
  | part :: parts =>
    part.headers.render ++ (Bytes.crlf ++ (part.content ++
      (b.delimiter ++ (lineMarker (lineKind parts) ++ behindLine b epilogue parts))))

/-- A body with all that may stand in it. -/
def layout (b : Boundary) (preamble : Option Bytes) (epilogue : Bytes) (parts : List Part) : Bytes :=
  let lines := lineMarker (lineKind parts) ++ behindLine b epilogue parts
  match preamble with
  | some preamble => preamble ++ (b.delimiter ++ lines)
  | none => b.dashed ++ lines

theorem isMarker_lineMarker (kind : LineKind) : IsMarker kind (lineMarker kind) := by
  cases kind with
  | opening => exact @IsMarker.opening [] (by simp)
  | closing => exact .closing

theorem flatten_headerChunks (entries : List (String × String)) :
    (entries.flatMap Writer.headerChunks).flatten = block (entries.map headerLine) := by
  induction entries with
  | nil => rfl
  | cons header entries ih =>
    simp only [List.flatMap_cons, List.flatten_append, ih, List.map_cons, block_cons]
    simp [Writer.headerChunks, headerLine]

theorem flatten_partChunks (b : Boundary) (epilogue : Bytes) (parts : List Part) :
    (parts.flatMap (Writer.partChunks b)).flatten ++
        (b.dashed ++ (Writer.closingLine ++ epilogue)) =
      b.dashed ++ (lineMarker (lineKind parts) ++ behindLine b epilogue parts) := by
  induction parts with
  | nil => simp [lineMarker, lineKind, behindLine, Writer.closingLine, Marker.closing]
  | cons part parts ih =>
    have headers := flatten_headerChunks part.headers.entries
    simp only [List.flatMap_cons, List.flatten_append, List.append_assoc, ih]
    simp only [Writer.partChunks, List.flatten_append, headers, behindLine, lineKind, lineMarker,
      Headers.render, Boundary.delimiter]
    simp [Bytes.crlf]

/-- The chunks of a writer make up the layout of its parts. -/
theorem flatten_chunks (w : Writer) :
    w.chunks.flatten = layout w.boundary w.preamble (w.epilogue.getD []) w.parts := by
  have parts := flatten_partChunks w.boundary (w.epilogue.getD []) w.parts
  have last : w.epilogue.toList.flatten = w.epilogue.getD [] := by
    cases w.epilogue <;> simp
  unfold Writer.chunks layout
  simp only [List.flatten_append, List.flatten_cons, List.flatten_nil, List.append_nil,
    List.append_assoc, last, parts]
  cases w.preamble with
  | none => rfl
  | some preamble => simp [Boundary.delimiter, Bytes.crlf]

/-! ## Where content ends -/

section LayoutLemmas

variable {b : Boundary} {kind : LineKind} {content marker after : Bytes} {f : Format}
  {parts : List Part} {epilogue : Bytes}

theorem not_split_of_not_occursIn {needle : Bytes} (none : Bytes.occursIn needle content = false)
    (before after : Bytes) : content ≠ before ++ (needle ++ after) := by
  rintro rfl
  rw [Bytes.occursIn, Option.isSome_eq_false_iff, Option.isNone_iff_eq_none,
    Bytes.find?_eq_none_iff] at none
  exact none before.length (occursAt_of_split)

/-- Content without a delimiter ends at the first one behind it. -/
theorem firstLine_of_accepted (none : Bytes.occursIn b.delimiter content = false)
    (is : IsMarker kind marker) :
    FirstLine b kind content after (content ++ (b.delimiter ++ (marker ++ after))) where
  line := ⟨marker, is, rfl⟩
  first {_ before _} line := by
    obtain ⟨marker', -, split⟩ := line
    -- A line that began inside the content would have all of its delimiter there.
    rcases Nat.lt_or_ge before.length content.length with lt | ge
    · obtain ⟨gap, inside, -⟩ := Boundary.delimiter_separate split.symm lt
      exact absurd inside (not_split_of_not_occursIn none _ _)
    · exact ge

theorem refusalOfPart_eq_none_iff {part : Part} :
    Writer.refusalOfPart b part = none ↔ Bytes.occursIn b.delimiter part.content = false ∧
      ∀ header ∈ part.headers.entries,
        Writer.hasLineBreak header.1 = false ∧ Writer.hasLineBreak header.2 = false := by
  unfold Writer.refusalOfPart
  cases Bytes.occursIn b.delimiter part.content with
  | true => simp
  | false => simp

theorem isLine_of_accepted {part : Part} (accepted : Writer.refusalOfPart b part = none) :
    ∀ line ∈ part.headers.entries.map headerLine, IsLine line := by
  intro line here
  obtain ⟨header, inside, rfl⟩ := List.mem_map.1 here
  obtain ⟨name, value⟩ := (refusalOfPart_eq_none_iff.1 accepted).2 header inside
  exact isLine_headerLine name value

theorem parse_of_lines {front : Bytes} {h : Headers}
    (all : ∀ line ∈ h.entries.map headerLine, IsLine line) (some : h.entries.map headerLine ≠ [])
    (same : h.render = front ++ Bytes.crlf) : Headers.parse .utf8 front = h.reread := by
  rw [Headers.parse, lines_of_block all some same, List.filterMap_map]
  rfl

/-- What stands behind a boundary line parses as the parts that are left. -/
theorem parses_behindLine (utf8 : f.charset = .utf8)
    (accepted : ∀ part ∈ parts, Writer.refusalOfPart f.boundary part = none)
    (small : ∀ part ∈ parts, part.headers.entries ≠ [] →
      (part.headers.render ++ Bytes.crlf).length ≤ f.headerLimit) :
    f.Parses (.behind (lineKind parts)) (behindLine f.boundary epilogue parts)
      (sectionItems (parts.map Part.reread) ++ [.epilogue epilogue]) := by
  induction parts with
  | nil => exact .epilogue
  | cons part parts ih =>
    have onward := ih (fun p here => accepted p (List.mem_cons_of_mem _ here))
      (fun p here => small p (List.mem_cons_of_mem _ here))
    have partAccepted := accepted part List.mem_cons_self
    have line := @firstLine_of_accepted _ _ _ _ (behindLine f.boundary epilogue parts)
      (refusalOfPart_eq_none_iff.1 partAccepted).1 (isMarker_lineMarker (lineKind parts))
    have content := Format.Parses.content line onward
    have all := isLine_of_accepted partAccepted
    simp only [List.map_cons, sectionItems_cons, List.cons_append, behindLine]
    by_cases none : part.headers.entries = []
    · have bare : part.headers.render = [] := by simp [Headers.render, none, block]
      have empty : part.reread.headers = .empty := by
        simp [Part.reread, Headers.reread, none, Headers.empty]
      rw [bare, empty, List.nil_append]
      exact .bare content
    · have some : part.headers.entries.map headerLine ≠ [] := by simpa using none
      obtain ⟨front, same, blank⟩ := firstBlank_of_lines all some (part.content ++
        (f.boundary.delimiter ++
          (lineMarker (lineKind parts) ++ behindLine f.boundary epilogue parts)))
      have fits := small part List.mem_cons_self none
      rw [Headers.render, same] at fits
      have parsed := parse_of_lines all some same
      rw [← utf8] at parsed
      have headers := Format.Parses.headers (f := f) (not_crlf_prefix_block all some _) blank
        (by simpa [Scanner.headerEnd, Nat.add_assoc] using fits) content
      rw [parsed] at headers
      exact headers

/-- A preamble that is accepted begins with no boundary, not even together with the break behind it. -/
theorem not_opensWith_preamble {preamble rest : Bytes} (front : ¬ b.dashed <+: preamble) :
    ¬ OpensWith b kind after (preamble ++ (b.delimiter ++ rest)) := by
  rintro ⟨marker, -, split⟩
  -- A boundary that reaches into the break would hold its carriage return.
  rcases List.append_eq_append_iff.1 split with ⟨mid, same, behind⟩ | ⟨mid, same, -⟩
  · cases mid with
    | nil =>
      rw [List.append_nil] at same
      exact front ⟨[], by rw [same, List.append_nil]⟩
    | cons x mid =>
      have first : Bytes.cr = x := (List.cons.inj behind).1
      exact Boundary.cr_not_mem_dashed (b := b) (by simp [same, first])
  · exact front ⟨mid, same.symm⟩

theorem parses_layout {preamble : Option Bytes} (utf8 : f.charset = .utf8)
    (acceptedPreamble : preamble.bind (Writer.refusalOfPreamble f.boundary) = none)
    (accepted : ∀ part ∈ parts, Writer.refusalOfPart f.boundary part = none)
    (small : ∀ part ∈ parts, part.headers.entries ≠ [] →
      (part.headers.render ++ Bytes.crlf).length ≤ f.headerLimit) :
    f.Parses .front (layout f.boundary preamble epilogue parts)
      (wholeItems (preamble.getD []) (parts.map Part.reread) epilogue) := by
  have behind : f.Parses (.behind (lineKind parts)) (behindLine f.boundary epilogue parts)
      (sectionItems (parts.map Part.reread) ++ [.epilogue epilogue]) :=
    parses_behindLine utf8 accepted small
  have is := isMarker_lineMarker (lineKind parts)
  cases preamble with
  | none => exact .atOnce ⟨_, is, rfl⟩ behind
  | some preamble =>
    simp only [Option.bind_some, Writer.refusalOfPreamble, ite_eq_right_iff, reduceCtorEq, imp_false,
      Bool.or_eq_true, not_or, Bool.not_eq_true] at acceptedPreamble
    have front : ¬ f.boundary.dashed <+: preamble := by
      rw [← List.isPrefixOf_iff_prefix, acceptedPreamble.1]
      exact Bool.noConfusion
    have line := @firstLine_of_accepted _ _ _ _ (behindLine f.boundary epilogue parts)
      acceptedPreamble.2 is
    exact .preamble (fun _ _ => not_opensWith_preamble front) line behind

end LayoutLemmas

/-- A body that is written parses as its preamble, its parts and its epilogue. -/
theorem parses_of_written {w : Writer} {bytes : Bytes} {limit : Nat} (written : w.toBytes = .ok bytes)
    (small : ∀ part ∈ w.parts, part.headers.entries ≠ [] →
      (part.headers.render ++ Bytes.crlf).length ≤ limit) :
    Format.Parses ⟨w.boundary, .utf8, limit⟩ .front bytes
      (wholeItems (w.preamble.getD []) (w.parts.map Part.reread) (w.epilogue.getD [])) := by
  obtain ⟨accepted, rfl⟩ := Writer.toBytes_eq_ok_iff.1 written
  rw [Writer.refusal?, Option.or_eq_none_iff, List.findSome?_eq_none_iff] at accepted
  rw [flatten_chunks]
  exact parses_layout (f := ⟨w.boundary, .utf8, limit⟩) rfl accepted.1 accepted.2 small

/-! ## Tidy headers -/

theorem exists_solid_of_trim {text : String} (some : text ≠ "") (trimmed : Text.trim text = text) :
    ∃ c ∈ text.toList, Text.isBlank c = false := by
  by_contra none_
  have blank : ∀ c ∈ text.toList, Text.isBlank c = true := by
    intro c here
    rw [← Bool.not_eq_false]
    exact fun solid => none_ ⟨c, here, solid⟩
  rw [Text.trim_eq_empty_iff.2 blank] at trimmed
  exact some trimmed.symm

/-- The line of a header with a tidy name gives this name. -/
theorem readLine_of_tidy_name {name : String} (some : name ≠ "") (noColon : ':' ∉ name.toList)
    (trimmed : Text.trim name = name) (value : String) :
    Headers.readLine .utf8 (headerLine (name, value)) = .some (name, Text.trim value) := by
  rw [readLine_headerLine noColon (exists_solid_of_trim some trimmed), trimmed]

theorem reread_of_tidy {h : Headers} (tidy : h.Tidy) : h.reread = h := by
  obtain ⟨entries⟩ := h
  rw [Headers.reread, Headers.mk.injEq]
  induction entries with
  | nil => rfl
  | cons header entries ih =>
    obtain ⟨some, noColon, name, value⟩ := tidy header List.mem_cons_self
    have read := readLine_of_tidy_name some noColon name header.2
    rw [value] at read
    have onward := ih fun other here => tidy other (List.mem_cons_of_mem _ here)
    rw [List.filterMap_cons, read, onward]

end HttpForms.Multipart
