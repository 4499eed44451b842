import Mathlib.Data.List.Basic
import HttpForms.Multipart.Disposition
import HttpForms.Multipart.Writer
import HttpForms.Proofs.Headers.Parameters

/-!
# Dispositions of forms are read back

A writer puts the name of a field and the name of a file between quotes, and a file name outside ASCII
once more behind it, percent-encoded. What is read of such a disposition are these parameters and no
others, whatever stands in the names.

Results:

1. `ofString?_fieldDisposition`, `ofString?_fileDisposition` — the parameters that are read;
2. `filename_fileParameters` — the file name that is read.
-/

namespace HttpForms.Multipart

open ParameterList (encodeBreaks quote toList_quote parseChars_quoted parseChars_separator
  parseChars_plain parseChars_nil)

/-! ## Extended values -/

/-- A file name in the extended form. -/
def extendedValue (filename : String) : List Char :=
  "UTF-8".toList ++ '\'' :: '\'' :: Percent.encode Percent.isAlphanumeric filename.toList

section ExtendedLemmas

variable {c : Char} {filename : String}

theorem mem_encode {cs : List Char} (here : c ∈ Percent.encode Percent.isAlphanumeric cs) :
    c = '%' ∨ Percent.isAlphanumeric c = true := by
  obtain ⟨d, -, inside⟩ := List.mem_flatMap.1 here
  split at inside
  · rename_i letter
    rw [List.mem_singleton.1 inside]
    exact .inr letter
  · obtain ⟨b, -, octet⟩ := List.mem_flatMap.1 inside
    exact Percent.mem_triplet octet

/-- All characters of an extended value are those of a token. -/
theorem isTokenChar_of_mem_extendedValue (here : c ∈ extendedValue filename) :
    isTokenChar c = true := by
  have quote : isTokenChar '\'' = true := by decide +kernel
  rcases List.mem_append.1 here with front | back
  · have all : "UTF-8".toList.all isTokenChar = true := by decide +kernel
    exact List.all_eq_true.1 all c front
  rcases List.mem_cons.1 back with rfl | back
  · exact quote
  rcases List.mem_cons.1 back with rfl | back
  · exact quote
  rcases mem_encode back with rfl | letter
  · decide +kernel
  · simp [isTokenChar, letter]

theorem decodeExtended?_extendedValue (filename : String) :
    Disposition.decodeExtended? (String.ofList (extendedValue filename)) = some filename := by
  have noQuote : '\'' ∉ "UTF-8".toList := by decide
  have charset : cut? '\'' (String.ofList (extendedValue filename)).toList =
      some ("UTF-8".toList, '\'' :: Percent.encode Percent.isAlphanumeric filename.toList) := by
    rw [String.toList_ofList]
    exact cut?_eq_some_iff.2 ⟨rfl, noQuote⟩
  have language : ∀ encoded, cut? '\'' ('\'' :: encoded) = some ([], encoded) :=
    fun encoded => cut?_eq_some_iff.2 ⟨rfl, List.not_mem_nil⟩
  have same : Text.sameAscii (String.ofList "UTF-8".toList) "utf-8" = true := by decide +kernel
  have bytes := Percent.decode_encode (fun _ letter => letter) filename.toList
  simp only [Disposition.decodeExtended?, charset, language, Option.bind_eq_bind, Option.bind_some,
    same, if_true, bytes]
  exact Utf8.decode?_encode filename

end ExtendedLemmas

/-! ## Parameters -/

/-- Whether a file name is written in the extended form as well. -/
def isWide (filename : String) : Bool :=
  !filename.toList.all (·.toNat < 0x80)

/-- The parameters of a field. -/
def fieldParameters (name : String) : List (String × String) :=
  [("name", encodeBreaks name)]

/-- The parameters of a file. -/
def fileParameters (name filename : String) : List (String × String) :=
  [("name", encodeBreaks name), ("filename", encodeBreaks filename)] ++
    if isWide filename then [("filename*", String.ofList (extendedValue filename))] else []

/-- The file name that is read where this one was written. -/
def readFilename (filename : String) : String :=
  if isWide filename then filename else encodeBreaks filename

/-- The list behind the type of a disposition, when this stands behind the name. -/
def parameterText (name : String) (rest : List Char) : List Char :=
  "name".toList ++ '=' :: ((quote name).toList ++ rest)

/-- A disposition of a form, when this stands behind the name. -/
def dispositionText (name : String) (rest : List Char) : List Char :=
  "form-data".toList ++ ';' :: ' ' :: parameterText name rest

/-- What stands behind the name of a file. -/
def filenameText (filename : String) : List Char :=
  ';' :: ' ' :: ("filename".toList ++ '=' :: ((quote filename).toList ++
    if isWide filename then ';' :: ' ' :: ("filename*".toList ++ '=' :: extendedValue filename)
    else []))

section ParameterLemmas

variable {c : Char} {name filename value : String} {cs rest : List Char}

theorem toList_fieldDisposition (name : String) :
    (Writer.fieldDisposition name).toList = dispositionText name [] := by
  unfold Writer.fieldDisposition dispositionText parameterText
  generalize quote name = quoted
  simp

theorem toList_fileDisposition (name filename : String) :
    (Writer.fileDisposition name filename).toList = dispositionText name (filenameText filename) := by
  unfold Writer.fileDisposition Writer.fieldDisposition dispositionText parameterText filenameText
    isWide extendedValue
  generalize Percent.encode Percent.isAlphanumeric filename.toList = encoded
  generalize quote filename = quotedFilename, quote name = quotedName
  cases filename.toList.all (·.toNat < 0x80) <;> simp

theorem parseChars_parameterText (name : String) (rest : List Char) :
    ParameterList.parseChars (parameterText name rest) =
      ("name", encodeBreaks name) :: ParameterList.parseChars rest :=
  parseChars_quoted (by decide +kernel) name rest

theorem parseChars_filenameText (filename : String) :
    ParameterList.parseChars (filenameText filename) =
      [("filename", encodeBreaks filename)] ++
        if isWide filename then [("filename*", String.ofList (extendedValue filename))] else [] := by
  have separators : ∀ cs, ParameterList.parseChars (';' :: ' ' :: cs) = ParameterList.parseChars cs :=
    fun cs => by rw [parseChars_separator (by decide), parseChars_separator (by decide)]
  -- The extended value stands without quotes, so it must not end early by itself.
  have plain : ∀ c ∈ extendedValue filename, c ≠ ';' ∧ c ≠ '"' ∧ Text.isBlank c = false := by
    intro c here
    have token := isTokenChar_of_mem_extendedValue here
    exact ⟨ne_of_isTokenChar token (by decide +kernel), ne_of_isTokenChar token (by decide +kernel),
      isBlank_of_isTokenChar token⟩
  have some : extendedValue filename ≠ [] := by simp [extendedValue]
  have token : isToken "filename*".toList = true := by decide +kernel
  have last := parseChars_plain token some plain .none
  rw [List.append_nil] at last
  rw [filenameText, separators, parseChars_quoted (by decide +kernel)]
  split
  · rw [separators, last, parseChars_nil]
    rfl
  · rw [parseChars_nil]
    rfl

/-! ## Line breaks -/

theorem not_mem_quoteChar (isBreak : c = '\r' ∨ c = '\n') (d : Char) :
    c ∉ ParameterList.quoteChar d := by
  unfold ParameterList.quoteChar
  split
  · rcases isBreak with rfl | rfl <;> decide
  · rcases isBreak with rfl | rfl <;> decide
  · rcases isBreak with rfl | rfl <;> decide
  · rcases isBreak with rfl | rfl <;> decide
  · rename_i cr lf _ _
    rw [List.mem_singleton]
    rintro rfl
    exact isBreak.elim (fun same => cr same) (fun same => lf same)

theorem not_mem_quote (isBreak : c = '\r' ∨ c = '\n') (value : String) : c ∉ (quote value).toList := by
  rw [toList_quote, List.mem_cons, List.mem_append, List.mem_singleton, List.mem_flatMap]
  have mark : c ≠ '"' := by rcases isBreak with rfl | rfl <;> decide
  rintro (same | ⟨d, -, here⟩ | same)
  · exact mark same
  · exact not_mem_quoteChar isBreak d here
  · exact mark same

theorem not_mem_extendedValue (isBreak : c = '\r' ∨ c = '\n') (filename : String) :
    c ∉ extendedValue filename := by
  intro here
  have token := isTokenChar_of_mem_extendedValue here
  rcases isBreak with rfl | rfl <;> exact absurd token (by decide +kernel)

/-- An entry whose name is a token has no more line breaks than its value. -/
theorem not_mem_entry (isBreak : c = '\r' ∨ c = '\n') {name value : List Char}
    (token : isToken name = true) (behind : c ∉ value) : c ∉ ';' :: ' ' :: (name ++ '=' :: value) := by
  have outside : isTokenChar c = false := by rcases isBreak with rfl | rfl <;> decide +kernel
  have mark : c ≠ ';' ∧ c ≠ ' ' ∧ c ≠ '=' := by rcases isBreak with rfl | rfl <;> decide
  rw [List.mem_cons, List.mem_cons, List.mem_append, List.mem_cons]
  rintro (same | same | front | same | here)
  · exact mark.1 same
  · exact mark.2.1 same
  · simp only [isToken, Bool.and_eq_true, List.all_eq_true] at token
    exact ne_of_isTokenChar (token.2 c front) outside rfl
  · exact mark.2.2 same
  · exact behind here

theorem not_mem_quoted (isBreak : c = '\r' ∨ c = '\n') (value : String) (behind : c ∉ rest) :
    c ∉ (quote value).toList ++ rest := by
  rw [List.mem_append]
  exact fun here => here.elim (not_mem_quote isBreak value) behind

theorem not_mem_dispositionText (isBreak : c = '\r' ∨ c = '\n') (name : String) (behind : c ∉ rest) :
    c ∉ dispositionText name rest := by
  have kind : c ∉ "form-data".toList := by rcases isBreak with rfl | rfl <;> decide
  have entry := not_mem_entry isBreak (by decide +kernel : isToken "name".toList = true)
    (not_mem_quoted isBreak name behind)
  unfold dispositionText
  exact fun here => (List.mem_append.1 here).elim kind entry

theorem not_mem_filenameText (isBreak : c = '\r' ∨ c = '\n') (filename : String) :
    c ∉ filenameText filename := by
  refine not_mem_entry isBreak (by decide +kernel) (not_mem_quoted isBreak filename ?_)
  split
  · exact not_mem_entry isBreak (by decide +kernel) (not_mem_extendedValue isBreak filename)
  · exact List.not_mem_nil

theorem hasLineBreak_eq_false_iff {text : String} :
    Writer.hasLineBreak text = false ↔ '\r' ∉ text.toList ∧ '\n' ∉ text.toList := by
  unfold Writer.hasLineBreak
  generalize text.toList = cs
  induction cs with
  | nil => simp
  | cons c cs ih =>
    simp only [List.any_cons, Bool.or_eq_false_iff, beq_eq_false_iff_ne, ih, List.mem_cons, not_or]
    constructor
    · rintro ⟨⟨cr, lf⟩, noCr, noLf⟩
      exact ⟨⟨Ne.symm cr, noCr⟩, Ne.symm lf, noLf⟩
    · rintro ⟨⟨cr, noCr⟩, lf, noLf⟩
      exact ⟨⟨Ne.symm cr, Ne.symm lf⟩, noCr, noLf⟩

/-- A value without line breaks comes back as it was. -/
theorem encodeBreaks_of_unbroken (unbroken : Writer.hasLineBreak value = false) :
    encodeBreaks value = value := by
  obtain ⟨cr, lf⟩ := hasLineBreak_eq_false_iff.1 unbroken
  have kept : ∀ c ∈ value.toList, ParameterList.breakChar c = [c] := by
    intro c here
    unfold ParameterList.breakChar
    split
    · exact absurd here cr
    · exact absurd here lf
    · rfl
  rw [encodeBreaks, List.flatMap_congr kept, List.flatMap_singleton', String.ofList_toList]

/-- Whatever stands in a name, its disposition takes one line. -/
theorem hasLineBreak_fieldDisposition (name : String) :
    Writer.hasLineBreak (Writer.fieldDisposition name) = false := by
  rw [hasLineBreak_eq_false_iff, toList_fieldDisposition]
  exact ⟨not_mem_dispositionText (.inl rfl) name List.not_mem_nil,
    not_mem_dispositionText (.inr rfl) name List.not_mem_nil⟩

theorem hasLineBreak_fileDisposition (name filename : String) :
    Writer.hasLineBreak (Writer.fileDisposition name filename) = false := by
  rw [hasLineBreak_eq_false_iff, toList_fileDisposition]
  exact ⟨not_mem_dispositionText (.inl rfl) name (not_mem_filenameText (.inl rfl) filename),
    not_mem_dispositionText (.inr rfl) name (not_mem_filenameText (.inr rfl) filename)⟩

/-! ## Trimming -/

/-- The text ends in a character that trimming leaves. -/
def EndsSolid (cs : List Char) : Prop :=
  ∃ front last, cs = front ++ [last] ∧ Text.isBlank last = false

theorem EndsSolid.append (ends : EndsSolid cs) (ds : List Char) : EndsSolid (ds ++ cs) := by
  obtain ⟨front, last, rfl, solid⟩ := ends
  exact ⟨ds ++ front, last, (List.append_assoc _ _ _).symm, solid⟩

theorem EndsSolid.cons (ends : EndsSolid cs) (c : Char) : EndsSolid (c :: cs) :=
  ends.append [c]

theorem EndsSolid.trimChars_cons (ends : EndsSolid cs) (begins : Text.isBlank c = false) :
    Text.trimChars (c :: cs) = c :: cs := by
  obtain ⟨front, last, rfl, solid⟩ := ends
  exact Text.trimChars_of_ends begins solid

theorem endsSolid_quote (value : String) : EndsSolid (quote value).toList :=
  ⟨'"' :: value.toList.flatMap ParameterList.quoteChar, '"', toList_quote value, by decide⟩

theorem endsSolid_extendedValue (filename : String) : EndsSolid (extendedValue filename) := by
  have some : extendedValue filename ≠ [] := by simp [extendedValue]
  refine ⟨_, _, (List.dropLast_concat_getLast some).symm, ?_⟩
  exact isBlank_of_isTokenChar (isTokenChar_of_mem_extendedValue (List.getLast_mem some))

theorem endsSolid_field (name : String) : EndsSolid ((quote name).toList ++ []) := by
  rw [List.append_nil]
  exact endsSolid_quote name

theorem endsSolid_file (name filename : String) :
    EndsSolid ((quote name).toList ++ filenameText filename) := by
  unfold filenameText
  refine EndsSolid.append (EndsSolid.cons (EndsSolid.cons
    (EndsSolid.append (EndsSolid.cons ?_ _) _) _) _) _
  split
  · exact ((((endsSolid_extendedValue filename).cons _).append _).cons _ |>.cons _).append _
  · exact endsSolid_field filename

theorem trimChars_dispositionText (ends : EndsSolid ((quote name).toList ++ rest)) :
    Text.trimChars (dispositionText name rest) = dispositionText name rest :=
  ((ends.cons '=').append "orm-data; name".toList).trimChars_cons
    (by decide : Text.isBlank 'f' = false)

theorem trim_fieldDisposition (name : String) :
    Text.trim (Writer.fieldDisposition name) = Writer.fieldDisposition name := by
  rw [Text.trim, toList_fieldDisposition, trimChars_dispositionText (endsSolid_field name),
    ← toList_fieldDisposition, String.ofList_toList]

theorem trim_fileDisposition (name filename : String) :
    Text.trim (Writer.fileDisposition name filename) = Writer.fileDisposition name filename := by
  rw [Text.trim, toList_fileDisposition, trimChars_dispositionText (endsSolid_file name filename),
    ← toList_fileDisposition, String.ofList_toList]

/-! ## Reading -/

/-- A disposition is read as its type and the list that stands behind it. -/
theorem ofString?_of_kind {kind : List Char} {text : String} (token : isToken kind = true)
    (begins : Text.isBlank c = false) (ends : EndsSolid cs)
    (written : text.toList = kind ++ ';' :: ' ' :: c :: cs) :
    Disposition.ofString? text =
      some (.ofParameters (String.ofList kind) (ParameterList.parseChars (c :: cs))) := by
  have is := ParameterList.IsName.of_token token
  have noMark : ';' ∉ kind := fun here => (is.free _ here).1 rfl
  have cut : cut? ';' text.toList = some (kind, ' ' :: c :: cs) := cut?_eq_some_iff.2 ⟨written, noMark⟩
  have parameters : Text.trimChars (' ' :: c :: cs) = c :: cs := by
    rw [Text.trimChars_blank_cons (by decide), ends.trimChars_cons begins]
  have trimmed : Text.trimChars text.toList = text.toList := by
    have wholeEnds := (((ends.cons c).cons ' ').cons ';').append kind.tail
    rw [written]
    obtain ⟨d, kind, rfl⟩ := List.exists_cons_of_ne_nil is.some
    exact wholeEnds.trimChars_cons is.solid
  simp only [Disposition.ofString?, trimmed, cut, parameters, is.trimmed, token, if_true]

/-- A disposition of a form is read as the list that stands behind its type. -/
theorem ofString?_dispositionText {text : String} (written : text.toList = dispositionText name rest)
    (ends : EndsSolid ((quote name).toList ++ rest)) :
    Disposition.ofString? text =
      some (.ofParameters "form-data" (ParameterList.parseChars (parameterText name rest))) :=
  ofString?_of_kind (by decide +kernel) (by decide : Text.isBlank 'n' = false)
    ((ends.cons '=').append "ame".toList) written

theorem lower_names : Text.lower "name" = "name" ∧ Text.lower "filename" = "filename" ∧
    Text.lower "filename*" = "filename*" := by
  decide +kernel

/-- The disposition of a field is read with its name alone. -/
theorem ofString?_fieldDisposition (name : String) :
    Disposition.ofString? (Writer.fieldDisposition name) =
      some ⟨"form-data", fieldParameters name⟩ := by
  rw [ofString?_dispositionText (toList_fieldDisposition name) (endsSolid_field name),
    parseChars_parameterText, parseChars_nil]
  simp [Disposition.ofParameters, Disposition.firstOfEach, lower_names, fieldParameters]

/-- The disposition of a file is read with its name and its file name alone. -/
theorem ofString?_fileDisposition (name filename : String) :
    Disposition.ofString? (Writer.fileDisposition name filename) =
      some ⟨"form-data", fileParameters name filename⟩ := by
  rw [ofString?_dispositionText (toList_fileDisposition name filename) (endsSolid_file name filename),
    parseChars_parameterText, parseChars_filenameText]
  unfold fileParameters
  split <;> simp [Disposition.ofParameters, Disposition.firstOfEach, lower_names]

/-- The name of a field or of a file comes back with its line breaks encoded. -/
theorem name_parameters (name : String) (more : List (String × String)) :
    Disposition.name ⟨"form-data", ("name", encodeBreaks name) :: more⟩ = some (encodeBreaks name) := by
  simp [Disposition.name, Disposition.get?, lower_names]

theorem filename_fieldParameters (name : String) :
    Disposition.filename ⟨"form-data", fieldParameters name⟩ = none := by
  simp [Disposition.filename, Disposition.get?, fieldParameters, lower_names]

/-- A file name outside ASCII comes back whole, every other one with its line breaks encoded. -/
theorem filename_fileParameters (name filename : String) :
    Disposition.filename ⟨"form-data", fileParameters name filename⟩ =
      some (readFilename filename) := by
  have extended := decodeExtended?_extendedValue filename
  unfold Disposition.filename Disposition.get? fileParameters readFilename
  split <;> simp [lower_names, extended]

end ParameterLemmas

end HttpForms.Multipart
