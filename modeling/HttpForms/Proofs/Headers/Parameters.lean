import Mathlib.Data.List.TakeWhile
import HttpForms.Multipart.ParameterList
import HttpForms.Proofs.Text.Blank
import HttpForms.Proofs.Text.Percent

/-!
# Quoted parameters are read back

A value that is written between quotes comes back as it was but for its line breaks, whatever else it
holds: no quote, backslash or semicolon in it ends it early. What follows the closing quote is left
for the next entry.

Results:

1. `unquote_quoted` — what stands between quotes is read back;
2. `parseChars_named` — what an entry of a parameter list gives, and what is left of it if it is skipped;
3. `parseChars_quoted`, `parseChars_plain` — an entry with a token for a name is read back.
-/

namespace HttpForms.Multipart

/-! ## Tokens -/

/-- A character of a token is visible ASCII. -/
theorem bounds_of_isTokenChar {c : Char} (token : isTokenChar c = true) :
    0x21 ≤ c.toNat ∧ c.toNat ≤ 0x7E := by
  simp only [isTokenChar, Bool.or_eq_true] at token
  rcases token with letter | sign
  · have bounds := Percent.bounds_of_isAlphanumeric letter
    omega
  · have all : "!#$%&'*+-.^_\x60\x7b|\x7d~".toList.all
        (fun d => decide (0x21 ≤ d.toNat ∧ d.toNat ≤ 0x7E)) = true := by decide +kernel
    exact of_decide_eq_true (List.all_eq_true.1 all c (List.contains_iff_mem.1 sign))

theorem isBlank_of_isTokenChar {c : Char} (token : isTokenChar c = true) :
    Text.isBlank c = false := by
  obtain ⟨low, high⟩ := bounds_of_isTokenChar token
  exact Text.isBlank_of_visible low high

theorem ne_of_isTokenChar {c d : Char} (token : isTokenChar c = true)
    (outside : isTokenChar d = false) : c ≠ d := by
  rintro rfl
  exact Bool.noConfusion (token.symm.trans outside)

namespace ParameterList

variable {c : Char} {cs rest name : List Char}

/-! ## Quoted values -/

/-- How a character comes back that was written between quotes. -/
def breakChar : Char → List Char
  | '\r' => ['%', '0', 'D']
  | '\n' => ['%', '0', 'A']
  | c => [c]

/-- The text with its line breaks percent-encoded. -/
def encodeBreaks (text : String) : String :=
  String.ofList (text.toList.flatMap breakChar)

theorem toList_quote (value : String) :
    (quote value).toList = '"' :: (value.toList.flatMap quoteChar ++ ['"']) := by
  simp [quote]

theorem unquote_cons (quote : c ≠ '"') (escape : c ≠ '\\') (rest : List Char) :
    unquote (c :: rest) = (c :: (unquote rest).1, (unquote rest).2) := by
  rw [unquote]
  · simp [quote]
  · simp [escape]
  · simp [escape]

theorem unquote_quoted (cs rest : List Char) :
    unquote (cs.flatMap quoteChar ++ '"' :: rest) = (cs.flatMap breakChar, rest) := by
  induction cs with
  | nil => rfl
  | cons c cs ih =>
    rw [List.flatMap_cons, List.flatMap_cons, List.append_assoc]
    -- Each of the four characters that are not written as they stand, and then all others.
    by_cases quote : c = '"'
    · subst quote
      simp [quoteChar, breakChar, unquote, ih]
    by_cases escape : c = '\\'
    · subst escape
      simp [quoteChar, breakChar, unquote, ih]
    by_cases cr : c = '\r'
    · subst cr
      simp [quoteChar, breakChar, unquote_cons, ih]
    by_cases lf : c = '\n'
    · subst lf
      simp [quoteChar, breakChar, unquote_cons, ih]
    · simp [quoteChar, breakChar, quote, escape, unquote_cons, ih]

/-! ## Names -/

/-- What can stand before the equals sign of an entry and is read as a name, if not as that of a
parameter. -/
structure IsName (name : List Char) : Prop where
  some : name ≠ []
  free : ∀ c ∈ name, c ≠ ';' ∧ c ≠ '='
  trimmed : Text.trimChars name = name

theorem IsName.of_token (token : isToken name = true) : IsName name := by
  obtain ⟨some, all⟩ : name ≠ [] ∧ ∀ c ∈ name, isTokenChar c = true := by simpa [isToken] using token
  refine ⟨some, fun c here => ⟨?_, ?_⟩, Text.trimChars_of_solid fun c here => ?_⟩
  · exact ne_of_isTokenChar (all c here) (by decide)
  · exact ne_of_isTokenChar (all c here) (by decide)
  · exact isBlank_of_isTokenChar (all c here)

/-- A name does not begin with a blank. -/
theorem IsName.solid (is : IsName (c :: name)) : Text.isBlank c = false := by
  refine (Text.isTrimmed_trim (String.ofList (c :: name))).1 c ?_
  rw [Text.toList_trim, String.toList_ofList, is.trimmed]
  rfl

/-- No separator is taken for the beginning of a name. -/
theorem IsName.begins (is : IsName (c :: name)) : isSeparator c = false := by
  have notBlank : Text.isAsciiBlank c = false := by
    rw [← Bool.not_eq_true]
    intro blank
    exact Bool.noConfusion ((Text.isBlank_of_isAsciiBlank blank).symm.trans is.solid)
  simp [isSeparator, (is.free c List.mem_cons_self).1, notBlank]

/-! ## Entries -/

/-- An entry with a token for a name gives what stands behind its equals sign. Every other one is
skipped up to the next semicolon. -/
theorem readEntry_named (is : IsName name) (value : List Char) :
    readEntry (name ++ '=' :: value) =
      if isToken name then
        (some (String.ofList name, String.ofList (readValue value).1), (readValue value).2)
      else (none, value.dropWhile (· != ';')) := by
  have noSemicolon : ∀ c ∈ name, (c != ';') = true := fun c here => bne_iff_ne.2 (is.free c here).1
  have noEquals : ∀ c ∈ name, (c != '=') = true := fun c here => bne_iff_ne.2 (is.free c here).2
  have entry : (name ++ '=' :: value).takeWhile (· != ';') =
      name ++ '=' :: value.takeWhile (· != ';') := by
    rw [List.takeWhile_append_of_pos noSemicolon]
    rfl
  have skipped : (name ++ '=' :: value).dropWhile (· != ';') = value.dropWhile (· != ';') := by
    rw [List.dropWhile_append_of_pos noSemicolon]
    rfl
  have taken : (name ++ '=' :: value.takeWhile (· != ';')).takeWhile (· != '=') = name := by
    rw [List.takeWhile_append_of_pos noEquals]
    simp
  have dropped : (name ++ '=' :: value).dropWhile (· != '=') = '=' :: value := by
    rw [List.dropWhile_append_of_pos noEquals]
    simp
  unfold readEntry
  simp only [entry, skipped, taken, dropped, is.trimmed, List.tail_cons]
  simp

theorem readValue_quoted (cs rest : List Char) :
    readValue ('"' :: (cs.flatMap quoteChar ++ '"' :: rest)) = (cs.flatMap breakChar, rest) := by
  simp only [readValue]
  exact unquote_quoted cs rest

theorem parseChars_eq (cs : List Char) :
    parseChars cs = match cs.dropWhile isSeparator with
      | [] => []
      | c :: rest => (readEntry (c :: rest)).1.toList ++ parseChars (readEntry (c :: rest)).2 := by
  rw [parseChars]
  split <;> (rename_i found; rw [found])

theorem parseChars_nil : parseChars [] = [] := by
  rw [parseChars_eq]
  rfl

/-- Blanks and semicolons before an entry do not count. -/
theorem parseChars_separator (separator : isSeparator c = true) (cs : List Char) :
    parseChars (c :: cs) = parseChars cs := by
  rw [parseChars_eq, parseChars_eq cs, List.dropWhile_cons, if_pos separator]

theorem parseChars_blanks (blank : ∀ c ∈ cs, Text.isAsciiBlank c = true) (rest : List Char) :
    parseChars (cs ++ rest) = parseChars rest := by
  induction cs with
  | nil => rfl
  | cons c cs ih =>
    have separator : isSeparator c = true := by simp [isSeparator, blank c List.mem_cons_self]
    rw [List.cons_append, parseChars_separator separator]
    exact ih fun d there => blank d (List.mem_cons_of_mem _ there)

theorem parseChars_named (is : IsName name) (value : List Char) :
    parseChars (name ++ '=' :: value) =
      if isToken name then
        (String.ofList name, String.ofList (readValue value).1) :: parseChars (readValue value).2
      else parseChars (value.dropWhile (· != ';')) := by
  have read := readEntry_named is value
  obtain ⟨c, name, rfl⟩ := List.exists_cons_of_ne_nil is.some
  have stays : (c :: name ++ '=' :: value).dropWhile isSeparator = c :: name ++ '=' :: value := by
    rw [List.cons_append, List.dropWhile_cons_of_neg (by simp [is.begins])]
  rw [parseChars_eq, stays]
  simp only [List.cons_append] at read ⊢
  rw [read]
  split <;> rfl

theorem parseChars_token (token : isToken name = true) (value : List Char) :
    parseChars (name ++ '=' :: value) =
      (String.ofList name, String.ofList (readValue value).1) :: parseChars (readValue value).2 := by
  rw [parseChars_named (.of_token token), if_pos token]

/-- A quoted entry is read back, and the list goes on behind its closing quote. -/
theorem parseChars_quoted (token : isToken name = true) (value : String) (rest : List Char) :
    parseChars (name ++ '=' :: ((quote value).toList ++ rest)) =
      (String.ofList name, encodeBreaks value) :: parseChars rest := by
  have quoted : (quote value).toList ++ rest =
      '"' :: (value.toList.flatMap quoteChar ++ '"' :: rest) := by
    rw [toList_quote, List.cons_append, List.append_assoc]
    rfl
  rw [quoted, parseChars_token token, readValue_quoted]
  rfl

/-- What can stand behind a value without quotes: nothing more, or a semicolon behind blanks. -/
inductive EndsEntry : List Char → Prop
  | none : EndsEntry []
  | more {blanks : List Char} : (∀ c ∈ blanks, Text.isAsciiBlank c = true) → (rest : List Char) →
      EndsEntry (blanks ++ ';' :: rest)

/-- Blanks between entries are trimmed away, and none of them is a semicolon. -/
theorem isBlank_and_ne_semicolon (blank : ∀ c ∈ cs, Text.isAsciiBlank c = true) :
    ∀ c ∈ cs, Text.isBlank c = true ∧ (c != ';') = true := by
  intro c here
  refine ⟨Text.isBlank_of_isAsciiBlank (blank c here), bne_iff_ne.2 ?_⟩
  rintro rfl
  exact absurd (blank _ here) (by decide)

/-- A value without quotes, blanks and semicolons is read as it stands. -/
theorem readValue_plain {value : List Char} (some : value ≠ [])
    (plain : ∀ c ∈ value, c ≠ ';' ∧ c ≠ '"' ∧ Text.isBlank c = false) (ends : EndsEntry rest) :
    readValue (value ++ rest) = (value, rest.dropWhile (· != ';')) := by
  have noMark : ∀ c ∈ value, (c != ';') = true := fun c here => bne_iff_ne.2 (plain c here).1
  have trimmed : Text.trimChars (value ++ rest.takeWhile (· != ';')) = value := by
    refine Text.trimChars_append_blanks (fun c here => (plain c here).2.2) ?_
    cases ends with
    | none => exact List.forall_mem_nil _
    | more blank behind =>
      rw [List.takeWhile_append_of_pos fun c here => (isBlank_and_ne_semicolon blank c here).2]
      simpa using fun c here => (isBlank_and_ne_semicolon blank c here).1
  obtain ⟨c, value, rfl⟩ := List.exists_cons_of_ne_nil some
  obtain ⟨-, noQuote, solid⟩ := plain c List.mem_cons_self
  have noSpace : ((c :: value) ++ rest).dropWhile (· == ' ') = (c :: value) ++ rest := by
    rw [List.cons_append, List.dropWhile_cons_of_neg]
    rw [beq_iff_eq]
    rintro rfl
    exact absurd solid (by decide)
  rw [readValue, noSpace]
  split
  · rename_i quoted same
    exact absurd (List.cons.inj same).1 noQuote
  · rw [List.takeWhile_append_of_pos noMark, List.dropWhile_append_of_pos noMark, trimmed]

/-- An entry with such a value is read as it stands, and the list goes on behind it. -/
theorem parseChars_plain (token : isToken name = true) {value : List Char} (some : value ≠ [])
    (plain : ∀ c ∈ value, c ≠ ';' ∧ c ≠ '"' ∧ Text.isBlank c = false) (ends : EndsEntry rest) :
    parseChars (name ++ '=' :: (value ++ rest)) =
      (String.ofList name, String.ofList value) :: parseChars rest := by
  rw [parseChars_token token, readValue_plain some plain ends]
  cases ends with
  | none => rfl
  | more blank behind =>
    have left : ∀ c ∈ _, (c != ';') = true := fun c here => (isBlank_and_ne_semicolon blank c here).2
    rw [List.dropWhile_append_of_pos left, parseChars_blanks blank]
    rfl

end ParameterList

end HttpForms.Multipart
