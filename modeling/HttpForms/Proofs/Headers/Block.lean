import HttpForms.Multipart.Writer
import HttpForms.Proofs.Body.Grammar
import HttpForms.Proofs.Headers.Parameters
import HttpForms.Proofs.Text.Utf8

/-!
# Blocks of header lines

A block of headers is written line by line. A line holds no break and is never empty, for at least
its colon stands in it; so the first blank line is the one behind the last header, and between the
breaks every line is found again.

Results:

1. `firstBlank_of_lines` — where a block of lines ends;
2. `lines_of_block` — the lines that are read are those that were written;
3. `readLine_headerLine` — a line gives its name and value, without the blanks around them.
-/

namespace HttpForms.Multipart

/-- A line that can be told from a blank one and holds no break. -/
structure IsLine (line : Bytes) : Prop where
  solid : line ≠ []
  cr : Bytes.cr ∉ line
  lf : Bytes.lf ∉ line

/-- Lines, each with its break. -/
def block (lines : List Bytes) : Bytes :=
  lines.flatMap (· ++ Bytes.crlf)

section BlockLemmas

variable {line rest before after : Bytes} {lines : List Bytes}

theorem block_cons (line : Bytes) (lines : List Bytes) :
    block (line :: lines) = line ++ (Bytes.crlf ++ block lines) := by
  simp [block]

theorem IsLine.head_ne_cr (is : IsLine line) (rest more : Bytes) : line ++ rest ≠ Bytes.cr :: more := by
  obtain ⟨b, line, rfl⟩ := List.exists_cons_of_ne_nil is.solid
  intro same
  have first : b = Bytes.cr := (List.cons.inj same).1
  exact is.cr (by simp [first])

/-! ## Where a block ends -/

/-- A carriage return that follows a text without any stands behind that text. -/
theorem length_le_of_cr (cr : Bytes.cr ∉ line)
    (split : line ++ rest = before ++ (Bytes.cr :: after)) : line.length ≤ before.length := by
  rcases List.append_eq_append_iff.1 split with ⟨mid, rfl, -⟩ | ⟨mid, rfl, same⟩
  · simp
  · cases mid with
    | nil => simp
    | cons b mid =>
      have first : Bytes.cr = b := (List.cons.inj same).1
      exact absurd (by simp [first]) cr

/-- An end of headers that follows a line stands behind its break, unless a blank line follows. -/
theorem headerEnd_behind_line (is : IsLine line) (solid : ∀ more, rest ≠ Bytes.cr :: more)
    (split : line ++ (Bytes.crlf ++ rest) = before ++ (Scanner.headerEnd ++ after)) :
    ∃ before', before = line ++ (Bytes.crlf ++ before') ∧
      rest = before' ++ (Scanner.headerEnd ++ after) := by
  have le := length_le_of_cr is.cr split
  obtain ⟨mid, rfl⟩ : ∃ mid, before = line ++ mid := by
    rcases List.append_eq_append_iff.1 split with ⟨mid, same, -⟩ | ⟨mid, same, -⟩
    · exact ⟨mid, same⟩
    · have length := congrArg List.length same
      simp only [List.length_append] at length
      obtain rfl : mid = [] := List.eq_nil_of_length_eq_zero (by omega)
      exact ⟨[], by simpa using same.symm⟩
  rw [List.append_assoc] at split
  have behind := List.append_cancel_left split
  -- It could begin with the break, but then a blank line follows, or at its line feed, which is none.
  rcases mid with _ | ⟨x, _ | ⟨y, mid⟩⟩
  · simp only [Bytes.crlf, Scanner.headerEnd, List.cons_append, List.nil_append, List.cons.injEq,
      true_and] at behind
    exact absurd behind (solid _)
  · simp only [Bytes.crlf, Scanner.headerEnd, List.cons_append, List.nil_append,
      List.cons.injEq] at behind
    exact absurd behind.2.1 (by decide)
  · simp only [Bytes.crlf, List.cons_append, List.nil_append, List.cons.injEq] at behind
    obtain ⟨rfl, rfl, behind⟩ := behind
    exact ⟨mid, rfl, behind⟩

/-- The first end of headers is the break of the last line with the blank line behind it. -/
theorem firstBlank_of_lines (all : ∀ line ∈ lines, IsLine line) (some : lines ≠ []) (after : Bytes) :
    ∃ front, block lines = front ++ Bytes.crlf ∧
      FirstBlank front after (block lines ++ (Bytes.crlf ++ after)) := by
  induction lines with
  | nil => exact absurd rfl some
  | cons line lines ih =>
    have is := all line List.mem_cons_self
    cases lines with
    | nil =>
      refine ⟨line, by simp [block], by simp [block, Scanner.headerEnd], fun {before _} split => ?_⟩
      rw [block_cons, List.append_assoc] at split
      exact length_le_of_cr is.cr split
    | cons next lines =>
      obtain ⟨front, same, blank⟩ := ih (fun l here => all l (List.mem_cons_of_mem _ here)) (by simp)
      refine ⟨line ++ (Bytes.crlf ++ front), by rw [block_cons, same]; simp, ?_, ?_⟩
      · rw [block_cons, List.append_assoc, List.append_assoc, blank.split]
        simp
      · intro before after' split
        have onward : ∀ more, block (next :: lines) ++ (Bytes.crlf ++ after) ≠ Bytes.cr :: more := by
          intro more
          rw [block_cons, List.append_assoc]
          exact (all next (by simp)).head_ne_cr _ _
        rw [block_cons, List.append_assoc, List.append_assoc] at split
        obtain ⟨before', rfl, behind⟩ := headerEnd_behind_line is onward split
        have le := blank.first behind
        simp only [List.length_append]
        omega

/-- A block of lines is no blank line. -/
theorem not_crlf_prefix_block (all : ∀ line ∈ lines, IsLine line) (some : lines ≠ []) (rest : Bytes) :
    ¬ Bytes.crlf <+: block lines ++ rest := by
  obtain ⟨line, lines, rfl⟩ := List.exists_cons_of_ne_nil some
  rintro ⟨more, same⟩
  rw [block_cons, List.append_assoc] at same
  exact (all line List.mem_cons_self).head_ne_cr _ _ same.symm

/-! ## Which lines are read -/

theorem stripReturn_append_cr (line : Bytes) : Headers.stripReturn (line ++ [Bytes.cr]) = line := by
  simp [Headers.stripReturn]

theorem IsLine.stripReturn_eq (is : IsLine line) : Headers.stripReturn line = line := by
  unfold Headers.stripReturn
  split
  · rename_i last
    exact absurd (List.mem_of_getLast? (by simpa using last)) is.cr
  · rfl

theorem lines_line (is : IsLine line) : Headers.lines line = [line] := by
  rw [Headers.lines, List.splitOn_eq_singleton is.lf, List.map_singleton, is.stripReturn_eq]

theorem lines_cons (is : IsLine line) (rest : Bytes) :
    Headers.lines (line ++ (Bytes.crlf ++ rest)) = line :: Headers.lines rest := by
  have lf : Bytes.lf ∉ line ++ [Bytes.cr] := by
    simp only [List.mem_append, List.mem_singleton, not_or]
    exact ⟨is.lf, by decide⟩
  have split : line ++ (Bytes.crlf ++ rest) = line ++ [Bytes.cr] ++ Bytes.lf :: rest := by
    simp [Bytes.crlf]
  rw [Headers.lines, split, List.splitOn_append_cons_self_of_not_mem lf, List.map_cons,
    stripReturn_append_cr]
  rfl

/-- The lines that are read from a block are those that were written. -/
theorem lines_of_block {front : Bytes} (all : ∀ line ∈ lines, IsLine line) (some : lines ≠ [])
    (same : block lines = front ++ Bytes.crlf) : Headers.lines front = lines := by
  induction lines generalizing front with
  | nil => exact absurd rfl some
  | cons line lines ih =>
    have is := all line List.mem_cons_self
    rw [block_cons] at same
    cases lines with
    | nil =>
      obtain rfl : line = front := by simpa [block] using same
      exact lines_line is
    | cons next lines =>
      obtain ⟨front', same', -⟩ :=
        firstBlank_of_lines (fun l here => all l (List.mem_cons_of_mem _ here)) (by simp) []
      obtain rfl : front = line ++ (Bytes.crlf ++ front') := by
        rw [same', ← List.append_assoc, ← List.append_assoc] at same
        exact (List.append_cancel_right same).symm.trans (List.append_assoc _ _ _)
      rw [lines_cons is, ih (fun l here => all l (List.mem_cons_of_mem _ here)) (by simp) same']

end BlockLemmas

/-! ## Header lines -/

/-- The line of a header, without its break. -/
def headerLine (header : String × String) : Bytes :=
  Utf8.encode header.1 ++ (Writer.headerColon ++ Utf8.encode header.2)

section HeaderLemmas

variable {header : String × String} {name value : String}

theorem not_mem_encode {text : String} {b : UInt8} (unbroken : Writer.hasLineBreak text = false)
    (isBreak : b = Bytes.cr ∨ b = Bytes.lf) : b ∉ Utf8.encode text := by
  simp only [Writer.hasLineBreak, List.any_eq_false, Bool.or_eq_true, beq_iff_eq, not_or] at unbroken
  intro here
  rcases isBreak with rfl | rfl
  · exact (unbroken _ ((Utf8.mem_encodeChars_ascii (by decide)).1 here)).1 (by decide)
  · exact (unbroken _ ((Utf8.mem_encodeChars_ascii (by decide)).1 here)).2 (by decide)

/-- A header without breaks makes a line. -/
theorem isLine_headerLine (name : Writer.hasLineBreak header.1 = false)
    (value : Writer.hasLineBreak header.2 = false) : IsLine (headerLine header) where
  solid := by simp [headerLine, Writer.headerColon]
  cr := by
    simp only [headerLine, List.mem_append, not_or]
    exact ⟨not_mem_encode name (.inl rfl), by decide, not_mem_encode value (.inl rfl)⟩
  lf := by
    simp only [headerLine, List.mem_append, not_or]
    exact ⟨not_mem_encode name (.inr rfl), by decide, not_mem_encode value (.inr rfl)⟩

/-- Octets that are all blanks are an encoding of blanks. -/
theorem isBlank_of_blank_octets {text : String} {c : Char}
    (blank : (Utf8.encode text).all Bytes.isAsciiBlank = true) (here : c ∈ text.toList) :
    Text.isBlank c = true := by
  obtain ⟨b, octet⟩ := List.exists_mem_of_ne_nil _ (String.utf8EncodeChar_ne_nil (c := c))
  have octet' : b ∈ Utf8.encode text := List.mem_flatMap.2 ⟨c, here, octet⟩
  have isBlank := List.all_eq_true.1 blank b octet'
  simp only [Bytes.isAsciiBlank, Bool.or_eq_true, beq_iff_eq] at isBlank
  have ascii : b.toNat < 0x80 := by
    rcases isBlank with (((rfl | rfl) | rfl) | rfl) | rfl <;> decide
  rw [(Utf8.mem_encodeChar_ascii ascii).1 octet]
  rcases isBlank with (((rfl | rfl) | rfl) | rfl) | rfl <;> decide

/-- A header line gives its name and its value, without the blanks around them. -/
theorem readLine_headerLine (noColon : ':' ∉ name.toList)
    (named : ∃ c ∈ name.toList, Text.isBlank c = false) :
    Headers.readLine .utf8 (headerLine (name, value)) = some (Text.trim name, Text.trim value) := by
  have notBlank : (Utf8.encode name).all Bytes.isAsciiBlank = false := by
    rw [← Bool.not_eq_true]
    intro blank
    obtain ⟨c, here, solid⟩ := named
    rw [isBlank_of_blank_octets blank here] at solid
    exact Bool.noConfusion solid
  have colon : (0x3A : UInt8) ∉ Utf8.encode name :=
    mt (Utf8.mem_encodeChars_ascii (by decide)).1 noColon
  have cut : cut? 0x3A (headerLine (name, value)) =
      some (Utf8.encode name, 0x20 :: Utf8.encode value) :=
    cut?_eq_some_iff.2 ⟨rfl, colon⟩
  have padded : 0x20 :: Utf8.encode value = Utf8.encode (" " ++ value) := by
    rw [Utf8.encode_append]
    rfl
  have trimmed : Text.trim (" " ++ value) = Text.trim value := by
    rw [Text.trim, Text.trim, String.toList_append]
    exact congrArg String.ofList (Text.trimChars_blank_cons (by decide))
  have kept : Headers.splitLine (headerLine (name, value)) =
      some (Utf8.encode name, Utf8.encode (" " ++ value)) := by
    rw [Headers.splitLine, cut, padded, Option.filter_some]
    simp only [notBlank, Bool.not_false, if_true]
  simp only [Headers.readLine, kept, Option.map_some, Charset.decode, Utf8.decodeLossy_encode, trimmed]

end HeaderLemmas

end HttpForms.Multipart
