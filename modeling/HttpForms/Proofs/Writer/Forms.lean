import HttpForms.Multipart.Form
import HttpForms.Proofs.Headers.Disposition
import HttpForms.Proofs.Writer.Layout

/-!
# Forms that are written are read back

A form is written call by call, and each call makes one part of the body. A name or a file name is the
business of one parameter in one header of that part, whatever stands in it: it can neither end its
quotes nor its line, so only a content or a media type can get a form refused, and the form that is
read has the same fields and files in the same order.

Results:

1. `refusalOfPart_part`, `toBytes_of_calls` — what a form is refused for;
2. `reread_part`, `disposition_readHeaders` — the headers and the parameters that are read of a call;
3. `form_is_read_back` — the form that is read of a form that was written.
-/

namespace HttpForms.Multipart

/-! ## Calls -/

/-- A call that adds to a form. -/
inductive FormCall
  | field (name value : String)
  | file (name filename : String) (contentType : Option String) (contents : Bytes)

namespace FormCall

/-- The writer after the call. -/
def addTo (w : Writer) : FormCall → Writer
  | field name value => w.addField name value
  | file name filename contentType contents => w.addFile name filename contentType contents

/-- The headers that the call writes. -/
def headers : FormCall → Headers
  | field name _ => ⟨[("Content-Disposition", Writer.fieldDisposition name)]⟩
  | file name filename contentType _ => ⟨[
      ("Content-Disposition", Writer.fileDisposition name filename),
      ("Content-Type", contentType.getD Writer.defaultFileType)]⟩

/-- The content that the call writes. -/
def content : FormCall → Bytes
  | field _ value => Utf8.encode value
  | file _ _ _ contents => contents

/-- The part that the call writes. -/
def part (call : FormCall) : Part :=
  ⟨call.headers, call.content⟩

/-- What a form with this boundary cannot hold: a delimiter in a content, or a line break in a media
type. -/
def Refused (b : Boundary) : FormCall → Prop
  | field _ value => b.delimiter <:+: Utf8.encode value
  | file _ _ contentType contents => b.delimiter <:+: contents ∨
      ∃ text, contentType = some text ∧ ('\r' ∈ text.toList ∨ '\n' ∈ text.toList)

/-! ## What is to be read -/

/-- The headers that are read of the call. -/
def readHeaders : FormCall → Headers
  | field name _ => ⟨[("Content-Disposition", Writer.fieldDisposition name)]⟩
  | file name filename contentType _ => ⟨[
      ("Content-Disposition", Writer.fileDisposition name filename),
      ("Content-Type", Text.trim (contentType.getD Writer.defaultFileType))]⟩

/-- The section that is read of the call. -/
def readPart (call : FormCall) : Part :=
  ⟨call.readHeaders, call.content⟩

/-- The parameters that are read of the call. -/
def parameters : FormCall → List (String × String)
  | field name _ => fieldParameters name
  | file name filename _ _ => fileParameters name filename

/-- The media type that is read of the call. -/
def readType? : FormCall → Option String
  | field .. => none
  | file _ _ contentType _ => some (Text.trim (contentType.getD Writer.defaultFileType))

/-- The field that is read of the call. -/
def readField? : FormCall → Option (String × String)
  | field name value => some (ParameterList.encodeBreaks name, value)
  | file .. => none

/-- The file that is read of the call. -/
def readFile? : FormCall → Option FormFile
  | field .. => none
  | call@(file name filename _ contents) =>
    some ⟨ParameterList.encodeBreaks name, readFilename filename, call.readHeaders, contents⟩

end FormCall

section CallLemmas

variable {b : Boundary} {calls : List FormCall}

theorem addTo_eq_addPart (w : Writer) (call : FormCall) : call.addTo w = w.addPart call.part := by
  cases call <;> rfl

/-- Every call makes one part, in order. -/
theorem parts_of_calls (w : Writer) (calls : List FormCall) :
    calls.foldl FormCall.addTo w = { w with parts := w.parts ++ calls.map FormCall.part } := by
  induction calls generalizing w with
  | nil => simp
  | cons call calls ih => simp [ih, addTo_eq_addPart, Writer.addPart]

/-! ## Refusals -/

theorem occursIn_eq_true_iff {needle hay : Bytes} :
    Bytes.occursIn needle hay = true ↔ needle <:+: hay := by
  constructor
  · intro found
    obtain ⟨place, here⟩ := Option.isSome_iff_exists.1 found
    obtain ⟨⟨-, front⟩, -⟩ := Bytes.find?_eq_some_iff.1 here
    exact front.isInfix.trans (List.drop_suffix place hay).isInfix
  · rintro ⟨before, after, rfl⟩
    rw [← Bool.not_eq_false]
    intro none
    exact not_split_of_not_occursIn none before after (List.append_assoc _ _ _)

theorem hasLineBreak_eq_true_iff {text : String} :
    Writer.hasLineBreak text = true ↔ '\r' ∈ text.toList ∨ '\n' ∈ text.toList := by
  rw [← Bool.not_eq_false, hasLineBreak_eq_false_iff, Decidable.not_and_iff_not_or_not,
    Decidable.not_not, Decidable.not_not]

theorem hasLineBreak_names : Writer.hasLineBreak "Content-Disposition" = false ∧
    Writer.hasLineBreak "Content-Type" = false ∧
    Writer.hasLineBreak Writer.defaultFileType = false := by
  decide +kernel

/-- Names never get a form refused. -/
theorem refusalOfPart_part {call : FormCall} :
    Writer.refusalOfPart b call.part = none ↔ ¬ call.Refused b := by
  obtain ⟨disposition, type, default⟩ := hasLineBreak_names
  rw [refusalOfPart_eq_none_iff, ← Bool.not_eq_true, occursIn_eq_true_iff]
  cases call with
  | field name value =>
    simp [FormCall.part, FormCall.headers, FormCall.content, FormCall.Refused, disposition,
      hasLineBreak_fieldDisposition]
  | file name filename contentType contents =>
    cases contentType with
    | none =>
      simp [FormCall.part, FormCall.headers, FormCall.content, FormCall.Refused, disposition, type,
        default, hasLineBreak_fileDisposition]
    | some text =>
      simp [FormCall.part, FormCall.headers, FormCall.content, FormCall.Refused, disposition, type,
        hasLineBreak_fileDisposition, ← hasLineBreak_eq_true_iff]

/-- A form is refused only for a content or a media type. -/
theorem toBytes_of_calls {calls : List FormCall} :
    (∃ refusal, (calls.foldl FormCall.addTo (.new b)).toBytes = .error refusal) ↔
      ∃ call ∈ calls, call.Refused b := by
  have refusal : (calls.foldl FormCall.addTo (.new b)).refusal? =
      (calls.map FormCall.part).findSome? (Writer.refusalOfPart b) := by
    rw [parts_of_calls]
    rfl
  have accepted : (calls.map FormCall.part).findSome? (Writer.refusalOfPart b) = none ↔
      ¬ ∃ call ∈ calls, call.Refused b := by
    simp [refusalOfPart_part]
  rw [Writer.toBytes, refusal]
  cases found : (calls.map FormCall.part).findSome? (Writer.refusalOfPart b) with
  | none => simpa using accepted.1 found
  | some refusal =>
    rw [found] at accepted
    simpa using accepted

/-! ## Sections -/

theorem readLine_disposition (value : String) :
    Headers.readLine .utf8 (headerLine ("Content-Disposition", value)) =
      some ("Content-Disposition", Text.trim value) :=
  readLine_of_tidy_name (by decide) (by decide) (by decide +kernel) value

theorem readLine_contentType (value : String) :
    Headers.readLine .utf8 (headerLine ("Content-Type", value)) =
      some ("Content-Type", Text.trim value) :=
  readLine_of_tidy_name (by decide) (by decide) (by decide +kernel) value

/-- A call adds the headers it writes, and no other. -/
theorem reread_part (call : FormCall) : call.part.reread = call.readPart := by
  cases call with
  | field name value =>
    simp only [FormCall.part, FormCall.headers, Part.reread, Headers.reread, List.filterMap_cons,
      readLine_disposition, trim_fieldDisposition]
    rfl
  | file name filename contentType contents =>
    simp only [FormCall.part, FormCall.headers, Part.reread, Headers.reread, List.filterMap_cons,
      readLine_disposition, readLine_contentType, trim_fileDisposition]
    rfl

theorem sameAscii_names : Text.sameAscii "Content-Disposition" "Content-Disposition" = true ∧
    Text.sameAscii "Content-Type" "Content-Disposition" = false ∧
    Text.sameAscii "Content-Disposition" "Content-Type" = false ∧
    Text.sameAscii "Content-Type" "Content-Type" = true := by
  decide +kernel

/-- A call adds the parameters of its names, and no other. -/
theorem disposition_readHeaders (call : FormCall) :
    call.readHeaders.disposition = some ⟨"form-data", call.parameters⟩ := by
  obtain ⟨same, other, -, -⟩ := sameAscii_names
  cases call with
  | field name value =>
    have found : Headers.get? (FormCall.field name value).readHeaders "Content-Disposition" =
        some (Writer.fieldDisposition name) := by
      simp [Headers.get?, Headers.getAll, FormCall.readHeaders, same]
    rw [Headers.disposition, found, Option.bind_some, ofString?_fieldDisposition]
    rfl
  | file name filename contentType contents =>
    have found : Headers.get? (FormCall.file name filename contentType contents).readHeaders
        "Content-Disposition" = some (Writer.fileDisposition name filename) := by
      simp [Headers.get?, Headers.getAll, FormCall.readHeaders, same, other]
    rw [Headers.disposition, found, Option.bind_some, ofString?_fileDisposition]
    rfl

/-- The media type of a file comes back without the blanks around it. -/
theorem contentType_readHeaders (call : FormCall) : call.readHeaders.contentType = call.readType? := by
  obtain ⟨-, -, other, same⟩ := sameAscii_names
  cases call with
  | field name value =>
    simp [Headers.contentType, Headers.get?, Headers.getAll, FormCall.readHeaders, other,
      FormCall.readType?]
  | file name filename contentType contents =>
    simp [Headers.contentType, Headers.get?, Headers.getAll, FormCall.readHeaders, other, same,
      FormCall.readType?]

theorem field?_readPart (call : FormCall) : call.readPart.field? .utf8 = call.readField? := by
  have disposition := disposition_readHeaders call
  rw [Part.field?, Headers.fieldName, Headers.filename, FormCall.readPart, disposition,
    Option.bind_some, Option.bind_some]
  cases call with
  | field name value =>
    rw [FormCall.parameters, filename_fieldParameters, fieldParameters, name_parameters]
    exact congrArg (fun text => some (_, text)) (Utf8.decodeLossy_encode value)
  | file name filename contentType contents =>
    rw [FormCall.parameters, filename_fileParameters]
    rfl

theorem file?_readPart (call : FormCall) : call.readPart.file? = call.readFile? := by
  have disposition := disposition_readHeaders call
  rw [Part.file?, Headers.fieldName, Headers.filename, FormCall.readPart, disposition,
    Option.bind_some, Option.bind_some]
  cases call with
  | field name value =>
    rw [FormCall.parameters, filename_fieldParameters]
    rfl
  | file name filename contentType contents =>
    rw [FormCall.parameters, filename_fileParameters, fileParameters, List.cons_append,
      name_parameters]
    rfl

theorem form_of_readParts (calls : List FormCall) :
    Form.ofParts .utf8 (calls.map FormCall.readPart) =
      ⟨calls.filterMap FormCall.readField?, calls.filterMap FormCall.readFile?⟩ := by
  have fields : Part.field? .utf8 ∘ FormCall.readPart = FormCall.readField? := funext field?_readPart
  have files : Part.file? ∘ FormCall.readPart = FormCall.readFile? := funext file?_readPart
  rw [Form.ofParts, List.filterMap_map, List.filterMap_map, fields, files]

end CallLemmas

/-! ## Reading back -/

/-- A form is refused just for a content that holds a delimiter or a media type that holds a line break.
Otherwise it is read, in whatever pieces it comes, with the fields and the files of its calls in
order: one section for every call, with the headers and the parameters of that call and no others. -/
theorem form_is_read_back (b : Boundary) (calls : List FormCall) :
    ((∃ refusal, (calls.foldl FormCall.addTo (.new b)).toBytes = .error refusal) ↔
      ∃ call ∈ calls, call.Refused b) ∧
    ∀ chunks size limit, (calls.foldl FormCall.addTo (.new b)).toBytes = .ok (List.flatten chunks) →
      (∀ call ∈ calls, (call.headers.render ++ Bytes.crlf).length ≤ limit) →
      ∃ r, Reader.new (Script.mk (chunks.map .data)) b.text .utf8
          ((Limits.default.withChunkSize size).withHeaderLimit limit) = .ok r ∧
        ∀ mode, r.form mode =
            .ok ⟨calls.filterMap FormCall.readField?, calls.filterMap FormCall.readFile?⟩ ∧
          r.parts mode = .ok (calls.map FormCall.readPart) ∧
          ∀ call ∈ calls, call.readPart.headers.disposition = some ⟨"form-data", call.parameters⟩ ∧
            call.readPart.headers.contentType = call.readType? := by
  refine ⟨toBytes_of_calls, fun chunks size limit written small => ?_⟩
  have fits : ∀ part ∈ (calls.foldl FormCall.addTo (.new b)).parts, part.headers.entries ≠ [] →
      (part.headers.render ++ Bytes.crlf).length ≤ limit := by
    rw [parts_of_calls]
    intro part here _
    obtain ⟨call, inside, rfl⟩ := List.mem_map.1 here
    exact small call inside
  have parses := parses_of_written written fits
  rw [parts_of_calls] at parses
  -- What the body parses as are the parts as they are reread, and each is what its call promises.
  have rereads : (calls.map FormCall.part).map Part.reread = calls.map FormCall.readPart := by
    rw [List.map_map]
    exact List.map_congr_left fun call _ => reread_part call
  simp only [Writer.new, List.nil_append, rereads] at parses
  have gives : Gives (Limits.default.withChunkSize size).chunkSize (Script.mk (chunks.map .data))
      chunks.flatten := Script.gives (Limits.chunkSize_pos _ _) chunks
  obtain ⟨r, made, charset, foresees⟩ : ∃ r, Reader.new (Script.mk (chunks.map .data)) b.text .utf8
      ((Limits.default.withChunkSize size).withHeaderLimit limit) = .ok r ∧ r.charset = .utf8 ∧
        r.Foresees (wholeItems [] (calls.map FormCall.readPart) []) :=
    Reader.new_foresees gives parses
  refine ⟨r, made, fun mode => ?_⟩
  have parts : r.parts mode = .ok (calls.map FormCall.readPart) := Reader.parts_of_whole foresees
  refine ⟨?_, parts, fun call _ => ⟨disposition_readHeaders call, contentType_readHeaders call⟩⟩
  rw [Reader.form, parts, charset, ← form_of_readParts]
  rfl

/-- A form whose names hold what would end a quote, a parameter or a line. -/
def sampleCalls : List FormCall := [
  .field "a\"; filename=\"x\r\n" "é",
  .file "b\\" "c\"\n.txt" (some " text/plain ") (Utf8.encode "--form\r"),
  .file "=" "é;\n" none (Utf8.encode "\r\n--")]

/-- The form with a boundary that may stand at the front of a content. -/
def sampleForm : Writer :=
  sampleCalls.foldl FormCall.addTo (.new ⟨"form", by decide +kernel⟩)

theorem form_is_read_back_sample :
    ∃ r, Reader.new (Script.mk [.data sampleForm.chunks.flatten]) "form" .utf8
        ((Limits.default.withChunkSize 1).withHeaderLimit 200) = .ok r ∧
      r.form .blocking = .ok ⟨[("a\"; filename=\"x%0D%0A", "é")], [
        ⟨"b\\", "c\"%0A.txt", ⟨[
          ("Content-Disposition", "form-data; name=\"b\\\\\"; filename=\"c\\\"%0A.txt\""),
          ("Content-Type", "text/plain")]⟩, Utf8.encode "--form\r"⟩,
        ⟨"=", "é;\n", ⟨[
          ("Content-Disposition",
            "form-data; name=\"=\"; filename=\"é;%0A\"; filename*=UTF-8''%C3%A9%3B%0A"),
          ("Content-Type", "application/octet-stream")]⟩, Utf8.encode "\r\n--"⟩]⟩ := by
  have written := Writer.toBytes_eq_ok_iff.2 ⟨(by decide +kernel : sampleForm.refusal? = none), rfl⟩
  obtain ⟨-, read⟩ := form_is_read_back ⟨"form", by decide +kernel⟩ sampleCalls
  obtain ⟨r, made, read⟩ := read [sampleForm.chunks.flatten] 1 200
    (by rw [List.flatten_singleton]; exact written) (by decide +kernel)
  refine ⟨r, made, (read .blocking).1.trans (congrArg Except.ok ?_)⟩
  decide +kernel

end HttpForms.Multipart
