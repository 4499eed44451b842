import HttpForms.Multipart.Headers
import HttpForms.Proofs.Text.Ascii
import HttpForms.Proofs.Text.Blank

/-!
# Headers in normal form

What is read of a block of lines is a header for each line that has a name, in the order of the lines.
Names and values are trimmed, no break is left in them and no colon in a name: the block is cut at
octets, and no charset makes a colon or a break of anything else.

Whether a line has a name is asked of its octets and of the blanks of ASCII, though, while trimming
takes away every blank of the text that is read. A name of other blanks passes the first and does not
survive the second.

Results:

1. `reads_parse` — which lines become headers;
2. `normal_of_mem_parse` — the form of every header;
3. `parse_normal` — both, and which lines leave a header without a name;
4. `hollow_name_is_kept` — a no-break space before the colon is such a line.
-/

namespace HttpForms.Multipart

namespace Headers

/-- The colon that ends a name. -/
def colon : UInt8 := 0x3A

/-- `Reads charset empty lines entries`: the entries are the headers of the lines in order, where a
line without a colon has none, nor does one whose name counts as empty. -/
inductive Reads (charset : Charset) (empty : Bytes → Prop) :
    List Bytes → List (String × String) → Prop
  | nil : Reads charset empty [] []
  | plain {line : Bytes} {lines : List Bytes} {entries : List (String × String)} :
      colon ∉ line → Reads charset empty lines entries → Reads charset empty (line :: lines) entries
  | unnamed {name value : Bytes} {lines : List Bytes} {entries : List (String × String)} :
      colon ∉ name → empty name → Reads charset empty lines entries →
      Reads charset empty ((name ++ colon :: value) :: lines) entries
  | header {name value : Bytes} {lines : List Bytes} {entries : List (String × String)} :
      colon ∉ name → ¬ empty name → Reads charset empty lines entries →
      Reads charset empty ((name ++ colon :: value) :: lines)
        ((Text.trim (charset.decode name), Text.trim (charset.decode value)) :: entries)

/-- No octet of the name is anything but a blank of ASCII. -/
def IsBare (name : Bytes) : Prop :=
  ∀ b ∈ name, Bytes.isAsciiBlank b = true

/-- The name is read as blanks alone. -/
def IsBlankName (charset : Charset) (name : Bytes) : Prop :=
  ∀ c ∈ (charset.decode name).toList, Text.isBlank c = true

/-- The line has a name that is read as blanks alone, not all of them blanks of ASCII. -/
def IsHollow (charset : Charset) (line : Bytes) : Prop :=
  ∃ name value, line = name ++ colon :: value ∧ colon ∉ name ∧ IsBlankName charset name ∧
    ¬ IsBare name

/-- The form of a header that was read. -/
structure Normal (entry : String × String) : Prop where
  name_trimmed : Text.IsTrimmed entry.1
  name_colon : ':' ∉ entry.1.toList
  name_lf : '\n' ∉ entry.1.toList
  value_trimmed : Text.IsTrimmed entry.2
  value_lf : '\n' ∉ entry.2.toList

section Lines

variable {charset : Charset} {block line name value : Bytes} {lines : List Bytes}
  {entry : String × String} {entries : List (String × String)} {empty empty' : Bytes → Prop}

/-! ## Lines -/

theorem stripReturn_subset (line : Bytes) : stripReturn line ⊆ line := by
  unfold stripReturn
  split
  · exact List.dropLast_subset line
  · exact List.Subset.refl line

theorem lf_not_mem_line (mem : line ∈ Headers.lines block) : Bytes.lf ∉ line := by
  obtain ⟨piece, here, rfl⟩ := List.mem_map.1 mem
  exact fun inside => not_mem_of_mem_splitOn here (stripReturn_subset piece inside)

theorem readLine_of_plain (plain : colon ∉ line) : readLine charset line = none := by
  have uncut : cut? 0x3A line = none := cut?_eq_none_iff.2 plain
  rw [readLine, splitLine, uncut]
  rfl

/-- A line with a colon is cut at the first one, unless its name is bare. -/
theorem splitLine_cut (first : colon ∉ name) (value : Bytes) :
    splitLine (name ++ colon :: value) =
      if name.all Bytes.isAsciiBlank then none else some (name, value) := by
  have cut : cut? 0x3A (name ++ colon :: value) = some (name, value) :=
    cut?_eq_some_iff.2 ⟨rfl, first⟩
  simp only [splitLine, cut, Option.filter_some]
  cases name.all Bytes.isAsciiBlank with
  | true => rfl
  | false => rfl

theorem readLine_of_bare (first : colon ∉ name) (bare : IsBare name) (value : Bytes) :
    readLine charset (name ++ colon :: value) = none := by
  rw [readLine, splitLine_cut first, if_pos (List.all_eq_true.2 bare)]
  rfl

theorem readLine_of_named (first : colon ∉ name) (named : ¬ IsBare name) (value : Bytes) :
    readLine charset (name ++ colon :: value) =
      some (Text.trim (charset.decode name), Text.trim (charset.decode value)) := by
  rw [readLine, splitLine_cut first, if_neg fun all => named (List.all_eq_true.1 all)]
  rfl

/-- A line has no colon, or it is cut at the first one. -/
theorem plain_or_cut (line : Bytes) :
    colon ∉ line ∨ ∃ name value, line = name ++ colon :: value ∧ colon ∉ name := by
  by_cases mem : colon ∈ line
  · exact .inr (List.eq_append_cons_of_mem mem)
  · exact .inl mem

theorem readLine_eq_some_iff :
    readLine charset line = some entry ↔ ∃ name value, line = name ++ colon :: value ∧
      colon ∉ name ∧ ¬ IsBare name ∧
      entry = (Text.trim (charset.decode name), Text.trim (charset.decode value)) := by
  constructor
  · intro read
    rcases plain_or_cut line with plain | ⟨name, value, rfl, first⟩
    · rw [readLine_of_plain plain] at read
      cases read
    · by_cases bare : IsBare name
      · rw [readLine_of_bare first bare] at read
        cases read
      · rw [readLine_of_named first bare] at read
        exact ⟨name, value, rfl, first, bare, (Option.some.inj read).symm⟩
  · rintro ⟨name, value, rfl, first, named, rfl⟩
    exact readLine_of_named first named value

/-! ## Blocks -/

/-- Every line that has a name gives one header, in order, and no other line gives any. -/
theorem reads_filterMap (charset : Charset) (lines : List Bytes) :
    Reads charset IsBare lines (lines.filterMap (readLine charset)) := by
  induction lines with
  | nil => exact .nil
  | cons line lines ih =>
    rcases plain_or_cut line with plain | ⟨name, value, rfl, first⟩
    · rw [List.filterMap_cons_none (readLine_of_plain plain)]
      exact .plain plain ih
    · by_cases bare : IsBare name
      · rw [List.filterMap_cons_none (readLine_of_bare first bare value)]
        exact .unnamed first bare ih
      · rw [List.filterMap_cons_some (readLine_of_named first bare value)]
        exact .header first bare ih

theorem reads_parse (charset : Charset) (block : Bytes) :
    Reads charset IsBare (Headers.lines block) (parse charset block).entries :=
  reads_filterMap charset (Headers.lines block)

/-- It only matters which names of the block count as empty. -/
theorem Reads.congr (reads : Reads charset empty lines entries)
    (same : ∀ name value, name ++ colon :: value ∈ lines → colon ∉ name →
      (empty name ↔ empty' name)) : Reads charset empty' lines entries := by
  induction reads with
  | nil => exact .nil
  | plain plain _ ih =>
    exact .plain plain (ih fun name value mem => same name value (List.mem_cons_of_mem _ mem))
  | unnamed first none_ _ ih =>
    exact .unnamed first ((same _ _ List.mem_cons_self first).1 none_)
      (ih fun name value mem => same name value (List.mem_cons_of_mem _ mem))
  | header first some_ _ ih =>
    exact .header first (mt (same _ _ List.mem_cons_self first).2 some_)
      (ih fun name value mem => same name value (List.mem_cons_of_mem _ mem))

theorem mem_parse_iff :
    entry ∈ (parse charset block).entries ↔ ∃ name value,
      name ++ colon :: value ∈ Headers.lines block ∧ colon ∉ name ∧ ¬ IsBare name ∧
      entry = (Text.trim (charset.decode name), Text.trim (charset.decode value)) := by
  rw [parse, List.mem_filterMap]
  constructor
  · rintro ⟨line, mem, read⟩
    obtain ⟨name, value, rfl, first, named, same⟩ := readLine_eq_some_iff.1 read
    exact ⟨name, value, mem, first, named, same⟩
  · rintro ⟨name, value, mem, first, named, same⟩
    exact ⟨_, mem, readLine_eq_some_iff.2 ⟨name, value, rfl, first, named, same⟩⟩

/-! ## The form of a header -/

/-- What is trimmed off decoded octets holds no ASCII character that the octets do not hold. -/
theorem not_mem_trim_decode {c : Char} {bytes : Bytes} (ascii : c.toNat < 0x80)
    (absent : UInt8.ofNat c.toNat ∉ bytes) : c ∉ (Text.trim (charset.decode bytes)).toList :=
  fun here => absent (Charset.mem_of_mem_decode (Text.subset_trim _ here) ascii)

theorem normal_of_mem_parse (mem : entry ∈ (parse charset block).entries) : Normal entry := by
  obtain ⟨name, value, line, first, -, rfl⟩ := mem_parse_iff.1 mem
  have lf := lf_not_mem_line line
  rw [List.mem_append, List.mem_cons, not_or, not_or] at lf
  exact {
    name_trimmed := Text.isTrimmed_trim _
    name_colon := not_mem_trim_decode (by decide) first
    name_lf := not_mem_trim_decode (by decide) lf.1
    value_trimmed := Text.isTrimmed_trim _
    value_lf := not_mem_trim_decode (by decide) lf.2.2 }

theorem isBlankName_iff : IsBlankName charset name ↔ Text.trim (charset.decode name) = "" :=
  Text.trim_eq_empty_iff.symm

/-- Blanks of ASCII are read as blanks, in every charset. -/
theorem IsBare.isBlankName (bare : IsBare name) : IsBlankName charset name := by
  have blank : ∀ b : UInt8, Bytes.isAsciiBlank b = true →
      b.toNat < 0x80 ∧ Text.isBlank (Charset.charOfByte b) = true := by
    intro b isBlank
    simp only [Bytes.isAsciiBlank, Bool.or_eq_true, beq_iff_eq] at isBlank
    rcases isBlank with (((rfl | rfl) | rfl) | rfl) | rfl <;> decide
  intro c here
  rw [Charset.decode_of_ascii fun b mem => (blank b (bare b mem)).1, String.toList_ofList] at here
  obtain ⟨b, mem, rfl⟩ := List.mem_map.1 here
  exact (blank b (bare b mem)).2

/-- A header has no name exactly if its line is hollow. -/
theorem exists_nameless_iff :
    (∃ entry ∈ (parse charset block).entries, entry.1 = "") ↔
      ∃ line ∈ Headers.lines block, IsHollow charset line := by
  constructor
  · rintro ⟨entry, mem, nameless⟩
    obtain ⟨name, value, line, first, named, rfl⟩ := mem_parse_iff.1 mem
    exact ⟨_, line, name, value, rfl, first, isBlankName_iff.2 nameless, named⟩
  · rintro ⟨_, line, name, value, rfl, first, blank, named⟩
    exact ⟨_, mem_parse_iff.2 ⟨name, value, line, first, named, rfl⟩, isBlankName_iff.1 blank⟩

end Lines

/-- Every header of a block is in normal form, and the headers are those of the lines that have a
colon and before it something other than blanks of ASCII, in order. One of them has no name exactly if
the block has a hollow line. Where it has none, every line with a name that is read as something other
than blanks gives a header, and no other line does. -/
theorem parse_normal (charset : Charset) (block : Bytes) :
    (∀ entry ∈ (parse charset block).entries, Normal entry) ∧
    Reads charset IsBare (Headers.lines block) (parse charset block).entries ∧
    ((∃ entry ∈ (parse charset block).entries, entry.1 = "") ↔
      ∃ line ∈ Headers.lines block, IsHollow charset line) ∧
    ((∀ line ∈ Headers.lines block, ¬ IsHollow charset line) →
      Reads charset (IsBlankName charset) (Headers.lines block) (parse charset block).entries) := by
  refine ⟨fun entry mem => normal_of_mem_parse mem, reads_parse charset block, exists_nameless_iff,
    fun solid => (reads_parse charset block).congr fun name value mem first => ?_⟩
  constructor
  · exact IsBare.isBlankName
  · intro blank
    by_contra named
    exact solid _ mem ⟨name, value, rfl, first, blank, named⟩

/-- A line without a colon, one whose name is a blank, and one whose name and value have wider blanks
around them, but none that is hollow. -/
theorem parse_normal_sample :
    (∀ line ∈ Headers.lines (Utf8.encode "bad\r\n : 2\n\u00A0a\u3000:\u00A0b: c\r"),
      ¬ IsHollow .utf8 line) ∧
    Reads .utf8 (IsBlankName .utf8)
      (Headers.lines (Utf8.encode "bad\r\n : 2\n\u00A0a\u3000:\u00A0b: c\r")) [("a", "b: c")] := by
  obtain ⟨-, -, hollow, reads⟩ :=
    parse_normal .utf8 (Utf8.encode "bad\r\n : 2\n\u00A0a\u3000:\u00A0b: c\r")
  have entries : (parse .utf8 (Utf8.encode "bad\r\n : 2\n\u00A0a\u3000:\u00A0b: c\r")).entries =
      [("a", "b: c")] := by
    decide +kernel
  rw [entries] at hollow reads
  have solid : ∀ line ∈ Headers.lines (Utf8.encode "bad\r\n : 2\n\u00A0a\u3000:\u00A0b: c\r"),
      ¬ IsHollow .utf8 line :=
    fun line mem isHollow => absurd (hollow.2 ⟨line, mem, isHollow⟩) (by simp)
  exact ⟨solid, reads solid⟩

/-- A no-break space before the colon is read as a name of blanks, so the line should give no header.
It gives one whose name is empty. -/
theorem hollow_name_is_kept :
    IsBlankName .utf8 (Utf8.encode "\u00A0") ∧
    (parse .utf8 (Utf8.encode "\u00A0: v")).entries = [("", "v")] ∧
    ¬ ∀ entry ∈ (parse .utf8 (Utf8.encode "\u00A0: v")).entries, entry.1 ≠ "" := by
  have entries : (parse .utf8 (Utf8.encode "\u00A0: v")).entries = [("", "v")] := by
    decide +kernel
  refine ⟨?_, entries, fun named => ?_⟩
  · exact List.all_eq_true.1 (by decide +kernel)
  · rw [entries] at named
    exact named _ List.mem_cons_self rfl

end Headers

end HttpForms.Multipart
