import HttpForms.Proofs.Headers.Disposition
import HttpForms.Proofs.Writer.RoundTrip

/-!
# Lists of parameters

A list whose names are tokens is read back entry by entry, whatever stands in its values and whatever
blanks stand around its semicolons: a quoted value ends at its own closing quote, and in a value
without quotes there is nothing that could end it early.

An entry whose name is no token is skipped up to the next semicolon, and that is looked for without
regard to quotes. A skipped value without a semicolon leaves nothing behind. Of any other the rest
behind the semicolon is read as the rest of the list, so what stands there can become a parameter.

Results:

1. `parse_listed` — a list whose names are tokens is read back;
2. `parse_quotedList` — what is read of a list some of whose names are no tokens;
3. `skipped_value_leaks` — a file name and a boundary that stood in a skipped value.
-/

namespace HttpForms.Multipart.ParameterList

/-! ## Names that are tokens -/

/-- An entry of a list, and whether its value stands between quotes. -/
structure Entry where
  name : String
  value : String
  quoted : Bool
  deriving DecidableEq, Repr

namespace Entry

/-- The name is a token, and so is a value that stands without quotes. -/
structure Valid (e : Entry) : Prop where
  name : isToken e.name.toList = true
  value : e.quoted = false → isToken e.value.toList = true

/-- The entry as it is written. -/
def text (e : Entry) : String :=
  e.name ++ "=" ++ if e.quoted then quote e.value else e.value

/-- The parameter that is read of the entry. -/
def parameter (e : Entry) : String × String :=
  (e.name, if e.quoted then encodeBreaks e.value else e.value)

end Entry

/-- The text lists the entries with semicolons between them, and any blanks of ASCII around these. -/
inductive Listed : List Entry → List Char → Prop
  | none : Listed [] []
  | last (e : Entry) : Listed [e] e.text.toList
  | more {e : Entry} {entries : List Entry} {before after text : List Char} :
      (∀ c ∈ before, Text.isAsciiBlank c = true) → (∀ c ∈ after, Text.isAsciiBlank c = true) →
      entries ≠ [] → Listed entries text →
      Listed (e :: entries) (e.text.toList ++ (before ++ ';' :: (after ++ text)))

section ListedLemmas

variable {e : Entry} {entries : List Entry} {rest : List Char}

theorem Entry.toList_text (e : Entry) : e.text.toList =
    e.name.toList ++ '=' :: (if e.quoted then (quote e.value).toList else e.value.toList) := by
  unfold Entry.text
  cases e.quoted <;> simp

/-- A valid entry is read back, and the list goes on behind it. -/
theorem parseChars_entry (valid : e.Valid) (ends : EndsEntry rest) :
    parseChars (e.text.toList ++ rest) = e.parameter :: parseChars rest := by
  rw [Entry.toList_text, List.append_assoc, List.cons_append, Entry.parameter]
  cases quoted : e.quoted with
  | true =>
    have read := parseChars_quoted valid.name e.value rest
    rwa [String.ofList_toList] at read
  | false =>
    obtain ⟨some, all⟩ : e.value.toList ≠ [] ∧ ∀ c ∈ e.value.toList, isTokenChar c = true := by
      simpa [isToken] using valid.value quoted
    have plain : ∀ c ∈ e.value.toList, c ≠ ';' ∧ c ≠ '"' ∧ Text.isBlank c = false := fun c here =>
      ⟨ne_of_isTokenChar (all c here) (by decide), ne_of_isTokenChar (all c here) (by decide),
        isBlank_of_isTokenChar (all c here)⟩
    have read := parseChars_plain valid.name some plain ends
    rwa [String.ofList_toList, String.ofList_toList] at read

/-- A list whose names are tokens is read back in order: a value without quotes as it stands, and a
quoted one with its line breaks encoded, which is all that the quotes change. -/
theorem parse_listed {text : String} (valid : ∀ e ∈ entries, e.Valid)
    (listed : Listed entries text.toList) : parse text = entries.map Entry.parameter := by
  rw [parse]
  generalize text.toList = cs at listed
  -- Each entry leaves the blanks and the semicolon behind it, which the next one passes over.
  induction listed with
  | none => exact parseChars_nil
  | last e =>
    have read := parseChars_entry (valid e List.mem_cons_self) .none
    rwa [List.append_nil, parseChars_nil] at read
  | @more e entries before after text blankBefore blankAfter _ _ ih =>
    have onward := ih fun other here => valid other (List.mem_cons_of_mem _ here)
    rw [parseChars_entry (valid e List.mem_cons_self) (.more blankBefore _),
      parseChars_blanks blankBefore, parseChars_separator (by decide), parseChars_blanks blankAfter,
      onward]
    rfl

end ListedLemmas

/-- Values that hold what would end an entry. -/
def sampleEntries : List Entry :=
  [⟨"a", "x;b=\"\\", true⟩, ⟨"b", "c", false⟩, ⟨"d", "é\r\n", true⟩]

theorem parse_listed_sample : (∀ e ∈ sampleEntries, e.Valid) ∧
    parse "a=\"x;b=\\\"\\\\\" \t;\r\n b=c\x0c;d=\"é%0D%0A\"" =
      [("a", "x;b=\"\\"), ("b", "c"), ("d", "é%0D%0A")] := by
  have valid : ∀ e ∈ sampleEntries, e.Valid := by
    simp only [sampleEntries, List.mem_cons, List.not_mem_nil, or_false, forall_eq_or_imp, forall_eq]
    exact ⟨⟨by decide +kernel, by decide +kernel⟩, ⟨by decide +kernel, by decide +kernel⟩,
      ⟨by decide +kernel, by decide +kernel⟩⟩
  have blanks : (∀ c ∈ " \t".toList, Text.isAsciiBlank c = true) ∧
      (∀ c ∈ "\r\n ".toList, Text.isAsciiBlank c = true) ∧
      ∀ c ∈ "\x0c".toList, Text.isAsciiBlank c = true :=
    ⟨List.all_eq_true.1 (by decide), List.all_eq_true.1 (by decide), List.all_eq_true.1 (by decide)⟩
  have listed : Listed sampleEntries
      "a=\"x;b=\\\"\\\\\" \t;\r\n b=c\x0c;d=\"é%0D%0A\"".toList :=
    .more blanks.1 blanks.2.1 (List.cons_ne_nil _ _)
      (.more blanks.2.2 (List.forall_mem_nil _) (List.cons_ne_nil _ _) (.last _))
  have read := parse_listed valid listed
  exact ⟨valid, read.trans (by decide +kernel)⟩

/-! ## Names that are no tokens -/

/-- An entry with its value between quotes. -/
def quotedEntry (e : String × String) : String :=
  e.1 ++ "=" ++ quote e.2

/-- A list of such entries. -/
def quotedList (entries : List (String × String)) : String :=
  "; ".intercalate (entries.map quotedEntry)

/-- A type with such entries behind it. -/
def headed (type : String) (entries : List (String × String)) : String :=
  "; ".intercalate (type :: entries.map quotedEntry)

/-- The entries whose names are tokens. -/
def tokensOf (entries : List (String × String)) : List (String × String) :=
  entries.filter fun e => isToken e.1.toList

/-- The entry is skipped, but only up to a semicolon in its value. -/
def Leaks (e : String × String) : Prop :=
  isToken e.1.toList = false ∧ ';' ∈ e.2.toList

/-- What stands in a list behind an entry, when these are the others. -/
def behind (entries : List (String × String)) : List Char :=
  entries.flatMap fun e => ';' :: ' ' :: (quotedEntry e).toList

section QuotedLemmas

variable {c : Char} {name cs front back rest : List Char} {value : String} {e : String × String}
  {entries before after : List (String × String)}

theorem toList_quotedEntry (e : String × String) :
    (quotedEntry e).toList = e.1.toList ++ '=' :: (quote e.2).toList := by
  simp [quotedEntry]

theorem toList_headed (type : String) (entries : List (String × String)) :
    (headed type entries).toList = type.toList ++ behind entries := by
  rw [headed, String.toList_intercalate]
  induction entries generalizing type with
  | nil => simp [behind]
  | cons e entries ih =>
    rw [List.map_cons, List.map_cons, List.map_cons, List.intercalate_cons_cons, ← List.map_cons, ih]
    simp [behind]

theorem toList_quotedList (e : String × String) (entries : List (String × String)) :
    (quotedList (e :: entries)).toList = (quotedEntry e).toList ++ behind entries :=
  toList_headed (quotedEntry e) entries

/-- Before the first entry a semicolon makes no difference. -/
theorem parse_quotedList_eq (entries : List (String × String)) :
    parse (quotedList entries) = parseChars (behind entries) := by
  cases entries with
  | nil => rfl
  | cons e entries =>
    have whole : behind (e :: entries) = ';' :: ' ' :: (quotedList (e :: entries)).toList := by
      rw [toList_quotedList]
      rfl
    rw [parse, whole, parseChars_separator (by decide), parseChars_separator (by decide)]

/-! ### Semicolons in quoted values -/

theorem semicolon_mem_quoteChar : ';' ∈ quoteChar c ↔ c = ';' := by
  unfold quoteChar
  split
  · decide
  · decide
  · decide
  · decide
  · rw [List.mem_singleton, eq_comm]

theorem dropWhile_quoted (free : ';' ∉ front) (rest : List Char) :
    (front.flatMap quoteChar ++ rest).dropWhile (· != ';') = rest.dropWhile (· != ';') := by
  apply List.dropWhile_append_of_pos
  intro c here
  obtain ⟨d, inside, written⟩ := List.mem_flatMap.1 here
  rw [bne_iff_ne]
  rintro rfl
  exact free (semicolon_mem_quoteChar.1 written ▸ inside)

/-- A quoted value without a semicolon is passed over whole. -/
theorem dropWhile_quote (free : ';' ∉ value.toList) (rest : List Char) :
    ((quote value).toList ++ rest).dropWhile (· != ';') = rest.dropWhile (· != ';') := by
  rw [toList_quote, List.cons_append, List.append_assoc, List.dropWhile_cons_of_pos (by decide),
    dropWhile_quoted free]
  rfl

/-- Any other is left behind its first semicolon. -/
theorem dropWhile_quote_of_mem (split : value.toList = front ++ ';' :: back) (free : ';' ∉ front)
    (rest : List Char) : ((quote value).toList ++ rest).dropWhile (· != ';') =
      ';' :: (back.flatMap quoteChar ++ '"' :: rest) := by
  rw [toList_quote, split, List.flatMap_append, List.cons_append, List.append_assoc,
    List.append_assoc, List.dropWhile_cons_of_pos (by decide), dropWhile_quoted free]
  simp [quoteChar]

/-! ### Entry by entry -/

theorem parseChars_behind_cons (is : IsName e.1.toList) (entries : List (String × String)) :
    parseChars (behind (e :: entries)) =
      if isToken e.1.toList then (e.1, encodeBreaks e.2) :: parseChars (behind entries)
      else parseChars (((quote e.2).toList ++ behind entries).dropWhile (· != ';')) := by
  have whole : behind (e :: entries) =
      ';' :: ' ' :: (e.1.toList ++ '=' :: ((quote e.2).toList ++ behind entries)) := by
    simp [behind, toList_quotedEntry]
  rw [whole, parseChars_separator (by decide), parseChars_separator (by decide)]
  cases token : isToken e.1.toList with
  | true =>
    have read := parseChars_quoted token e.2 (behind entries)
    rwa [String.ofList_toList] at read
  | false =>
    rw [parseChars_named is, token]
    rfl

theorem dropWhile_behind (entries : List (String × String)) :
    (behind entries).dropWhile (· != ';') = behind entries := by
  cases entries <;> rfl

/-- Entries that do not leak give what their tokens give, and the list goes on behind them. -/
theorem parseChars_behind_append (names : ∀ e ∈ before, IsName e.1.toList)
    (unbroken : ∀ e ∈ before, Writer.hasLineBreak e.2 = false) (tight : ∀ e ∈ before, ¬ Leaks e)
    (after : List (String × String)) :
    parseChars (behind (before ++ after)) = tokensOf before ++ parseChars (behind after) := by
  induction before with
  | nil => rfl
  | cons e before ih =>
    have onward := ih (fun d there => names d (List.mem_cons_of_mem _ there))
      (fun d there => unbroken d (List.mem_cons_of_mem _ there))
      fun d there => tight d (List.mem_cons_of_mem _ there)
    rw [List.cons_append, parseChars_behind_cons (names e List.mem_cons_self)]
    by_cases token : isToken e.1.toList = true
    · have kept : tokensOf (e :: before) = e :: tokensOf before := List.filter_cons_of_pos token
      rw [if_pos token, encodeBreaks_of_unbroken (unbroken e List.mem_cons_self), onward, kept,
        List.cons_append]
    · -- The search for the end of a skipped entry starts in its value and must not stop there.
      have left : tokensOf (e :: before) = tokensOf before := List.filter_cons_of_neg token
      have free : ';' ∉ e.2.toList := fun here =>
        tight e List.mem_cons_self ⟨eq_false_of_ne_true token, here⟩
      rw [if_neg token, dropWhile_quote free, dropWhile_behind, onward, left]

/-- Behind the first semicolon of a value that leaks, its rest is read like what follows it. -/
theorem parseChars_behind_of_leaks (is : IsName e.1.toList) (token : isToken e.1.toList = false)
    (split : e.2.toList = front ++ ';' :: back) (free : ';' ∉ front)
    (after : List (String × String)) :
    parseChars (behind (e :: after)) = parseChars (back.flatMap quoteChar ++ '"' :: behind after) := by
  rw [parseChars_behind_cons is, if_neg (by simp [token]), dropWhile_quote_of_mem split free,
    parseChars_separator (by decide)]

/-! ### Headers with such lists -/

theorem endsSolid_behind (e : String × String) (entries : List (String × String)) :
    EndsSolid ((quote e.2).toList ++ behind entries) := by
  induction entries generalizing e with
  | nil => exact endsSolid_field e.2
  | cons f entries ih =>
    have last := (ih f).cons '=' |>.append f.1.toList |>.cons ' ' |>.cons ';'
    have whole : behind (f :: entries) =
        ';' :: ' ' :: (f.1.toList ++ '=' :: ((quote f.2).toList ++ behind entries)) := by
      simp [behind, toList_quotedEntry]
    rw [whole]
    exact last.append _

/-- A disposition is read with the parameters of its list. -/
theorem ofString?_headed {kind : String} (token : isToken kind.toList = true)
    (names : ∀ e ∈ entries, IsName e.1.toList) :
    Disposition.ofString? (headed kind entries) =
      some (.ofParameters kind (parse (quotedList entries))) := by
  cases entries with
  | nil =>
    have is := IsName.of_token token
    have uncut : cut? ';' kind.toList = none := cut?_eq_none_iff.2 fun here => (is.free _ here).1 rfl
    have written : (headed kind []).toList = kind.toList := by simp [toList_headed, behind]
    simp only [Disposition.ofString?, written, is.trimmed, uncut, token, if_true, String.ofList_toList]
    rfl
  | cons e entries =>
    have is := names e List.mem_cons_self
    obtain ⟨c, name, first⟩ := List.exists_cons_of_ne_nil is.some
    have list : (quotedList (e :: entries)).toList =
        c :: (name ++ '=' :: ((quote e.2).toList ++ behind entries)) := by
      simp [toList_quotedList, toList_quotedEntry, first]
    have written : (headed kind (e :: entries)).toList =
        kind.toList ++ ';' :: ' ' :: (quotedList (e :: entries)).toList := by
      rw [toList_headed, toList_quotedList]
      rfl
    rw [first] at is
    rw [list] at written
    rw [ofString?_of_kind token is.solid (((endsSolid_behind e entries).cons '=').append name) written,
      String.ofList_toList, parse, list]

/-- A media type has the boundary that is first in its list. -/
theorem boundary?_headed {subtype : String} (noMark : ';' ∉ subtype.toList)
    (entries : List (String × String)) :
    ContentType.boundary? (headed ("multipart/" ++ subtype) entries) =
      (((parse (quotedList entries)).find? fun (name, _) =>
        Text.sameAscii name "boundary").map Prod.snd).filter (!·.isEmpty) := by
  have type : (headed ("multipart/" ++ subtype) entries).toList =
      "multipart/".toList ++ subtype.toList ++ behind entries := by simp [toList_headed]
  cases entries with
  | nil =>
    have free : ';' ∉ "multipart/".toList ++ subtype.toList ++ behind [] := by
      simpa [behind] using noMark
    have none : parseChars (behind []) = [] := parseChars_nil
    rw [ContentType.boundary?, type, cut?_eq_none_iff.2 free, parse_quotedList_eq, none]
    rfl
  | cons e entries =>
    have written : (headed ("multipart/" ++ subtype) (e :: entries)).toList =
        "multipart/".toList ++ subtype.toList ++ ';' :: ' ' :: (quotedList (e :: entries)).toList := by
      rw [type, toList_quotedList]
      rfl
    rw [boundary?_of_multipart noMark written, parseChars_separator (by decide), parse]

end QuotedLemmas

/-- Of a list of quoted entries the ones whose names are tokens are read, in order and with their
values, unless one of the others leaks. From the first one that does, the list goes on behind the
first semicolon of its value. A disposition and a media type are read with the same parameters. -/
theorem parse_quotedList {entries : List (String × String)}
    (names : ∀ e ∈ entries, IsName e.1.toList)
    (unbroken : ∀ e ∈ entries, Writer.hasLineBreak e.2 = false) :
    ((∀ e ∈ entries, ¬ Leaks e) → parse (quotedList entries) = tokensOf entries) ∧
    (∀ before e after front back, entries = before ++ e :: after → (∀ d ∈ before, ¬ Leaks d) →
      isToken e.1.toList = false → e.2.toList = front ++ ';' :: back → ';' ∉ front →
      parse (quotedList entries) =
        tokensOf before ++ parseChars (back.flatMap quoteChar ++ '"' :: behind after)) ∧
    (∀ kind, isToken kind.toList = true →
      Disposition.ofString? (headed kind entries) =
        some (.ofParameters kind (parse (quotedList entries)))) ∧
    ∀ subtype, ';' ∉ subtype.toList →
      ContentType.boundary? (headed ("multipart/" ++ subtype) entries) =
        (((parse (quotedList entries)).find? fun (name, _) =>
          Text.sameAscii name "boundary").map Prod.snd).filter (!·.isEmpty) := by
  refine ⟨fun tight => ?_, fun before e after front back whole tight token split free => ?_,
    fun kind token => ofString?_headed token names, fun subtype noMark => boundary?_headed noMark _⟩
  · have read := parseChars_behind_append names unbroken tight []
    rw [List.append_nil] at read
    rw [parse_quotedList_eq, read]
    exact (congrArg _ parseChars_nil).trans (List.append_nil _)
  · subst whole
    have inFront : ∀ d ∈ before, d ∈ before ++ e :: after := fun d there =>
      List.mem_append_left _ there
    have read := parseChars_behind_append (fun d there => names d (inFront d there))
      (fun d there => unbroken d (inFront d there)) tight (e :: after)
    have is := names e (List.mem_append_right _ List.mem_cons_self)
    rw [parse_quotedList_eq, read, parseChars_behind_of_leaks is token split free]

/-- Two entries that are skipped, and a value with all that could end one. -/
def sampleQuoted : List (String × String) :=
  [("a b", "=\"x"), ("b", "; c=\"1"), ("é", "\\")]

theorem parse_quotedList_sample :
    (∀ e ∈ sampleQuoted, IsName e.1.toList) ∧
    (∀ e ∈ sampleQuoted, Writer.hasLineBreak e.2 = false) ∧
    parse "a b=\"=\\\"x\"; b=\"; c=\\\"1\"; é=\"\\\\\"" = [("b", "; c=\"1")] := by
  have names : ∀ e ∈ sampleQuoted, IsName e.1.toList := by
    simp only [sampleQuoted, List.mem_cons, List.not_mem_nil, or_false, forall_eq_or_imp, forall_eq]
    exact ⟨⟨by decide, by simp, by decide +kernel⟩, ⟨by decide, by simp, by decide +kernel⟩,
      ⟨by decide, by simp, by decide +kernel⟩⟩
  have unbroken : ∀ e ∈ sampleQuoted, Writer.hasLineBreak e.2 = false := by decide +kernel
  have tight : ∀ e ∈ sampleQuoted, ¬ Leaks e := by
    simp only [sampleQuoted, List.mem_cons, List.not_mem_nil, or_false, forall_eq_or_imp, forall_eq]
    exact ⟨fun leaks => absurd leaks.2 (by decide +kernel),
      fun leaks => absurd leaks.1 (by decide +kernel), fun leaks => absurd leaks.2 (by decide +kernel)⟩
  have read := (parse_quotedList names unbroken).1 tight
  exact ⟨names, unbroken, read.trans (by decide +kernel)⟩

/-- What stands behind a semicolon in the value of a skipped entry is read as a parameter, which gives
a disposition its file name and a media type its boundary. -/
theorem skipped_value_leaks :
    IsName "a b".toList ∧ '"' ∉ "a b".toList ∧ isToken "a b".toList = false ∧
    parse (quotedList [("a b", "; filename=evil; ")]) = [("filename", "evil")] ∧
    (Disposition.ofString? "form-data; a b=\"; filename=evil; \"").bind Disposition.filename =
      some "evil" ∧
    ContentType.boundary? "multipart/mixed; a b=\"; boundary=evil; \"" = some "evil" ∧
    ¬ ∀ entries : List (String × String),
      (∀ e ∈ entries, IsName e.1.toList ∧ '"' ∉ e.1.toList ∧ Writer.hasLineBreak e.2 = false) →
        parse (quotedList entries) = tokensOf entries := by
  have is : IsName "a b".toList := ⟨by decide, by simp, by decide +kernel⟩
  have leaked : parse (quotedList [("a b", "; filename=evil; ")]) = [("filename", "evil")] := by
    decide +kernel
  refine ⟨is, by decide, by decide +kernel, leaked, by decide +kernel, by decide +kernel, fun all => ?_⟩
  have none : parse (quotedList [("a b", "; filename=evil; ")]) = [] := by
    refine (all _ fun e here => ?_).trans (by decide +kernel)
    rw [List.mem_singleton.1 here]
    exact ⟨is, by decide, by decide +kernel⟩
  rw [leaked] at none
  cases none

end HttpForms.Multipart.ParameterList
