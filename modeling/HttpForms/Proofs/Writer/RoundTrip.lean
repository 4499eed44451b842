import Mathlib.Data.List.Basic
import HttpForms.Multipart.ContentType
import HttpForms.Proofs.Headers.Disposition
import HttpForms.Proofs.Writer.Layout

/-!
# What is written is read back

The media type of a written body names its boundary in a way that survives its parameter parser, and
with that boundary a reader finds the parts again.

Results:

1. `boundary?_of_multipart`, `boundary?_contentType` — the boundary that a media type names;
2. `written_is_read_back` — a reader of a written body records the parts that were given.
-/

namespace HttpForms.Multipart

/-! ## Media types -/

section ContentTypeLemmas

variable {b : Boundary} {c : Char} {subtype : List Char}

theorem toList_quote_text : (ParameterList.quote b.text).toList = '"' :: (b.text.toList ++ ['"']) := by
  have kept : ∀ c ∈ b.text.toList, ParameterList.quoteChar c = [c] := by
    intro c here
    have plain {d : Char} (outside : isBoundaryChar d = false) : c ≠ d := by
      rintro rfl
      exact Boundary.not_mem_text outside here
    have cr := plain (d := '\r') (by decide +kernel)
    have lf := plain (d := '\n') (by decide +kernel)
    have quote := plain (d := '"') (by decide +kernel)
    have escape := plain (d := '\\') (by decide +kernel)
    simp [ParameterList.quoteChar]
  rw [ParameterList.toList_quote, List.flatMap_congr kept, List.flatMap_singleton']

theorem encodeBreaks_text : ParameterList.encodeBreaks b.text = b.text := by
  apply encodeBreaks_of_unbroken
  rw [hasLineBreak_eq_false_iff]
  exact ⟨Boundary.not_mem_text (by decide +kernel), Boundary.not_mem_text (by decide +kernel)⟩

theorem text_ne_empty : b.text.isEmpty = false := by
  have valid := b.valid
  simp only [isBoundary, Bool.and_eq_true, Bool.not_eq_true', List.isEmpty_eq_false_iff] at valid
  rw [← Bool.not_eq_true, String.isEmpty_iff]
  intro none
  exact valid.1.1.1 (by rw [none]; rfl)

/-- Trimming takes nothing away before a character that is no blank. -/
theorem trimChars_append {front rest : List Char} {first last : Char}
    (begins : Text.isBlank first = false) (ends : Text.isBlank last = false) :
    ∃ rest', Text.trimChars (first :: (front ++ last :: rest)) = first :: (front ++ last :: rest') := by
  have kept : (first :: (front ++ last :: rest)).dropWhile Text.isBlank =
      first :: (front ++ last :: rest) := by
    rw [List.dropWhile_cons_of_neg (by simp [begins])]
  have back : (first :: (front ++ last :: rest)).reverse =
      rest.reverse ++ (first :: (front ++ [last])).reverse := by simp
  rw [Text.trimChars, kept, back, List.dropWhile_append]
  split
  · exact ⟨[], by simp [ends]⟩
  · exact ⟨(rest.reverse.dropWhile Text.isBlank).reverse, by simp⟩

theorem isMultipart_append (subtype : List Char) :
    ContentType.isMultipart ("multipart/".toList ++ subtype) = true := by
  obtain ⟨rest, trimmed⟩ := @trimChars_append "ultipart".toList subtype 'm' '/' (by decide) (by decide)
  have whole : "multipart/".toList ++ subtype = 'm' :: ("ultipart".toList ++ '/' :: subtype) := by simp
  have cut : cut? '/' ('m' :: ("ultipart".toList ++ '/' :: rest)) = some ("multipart".toList, rest) :=
    cut?_eq_some_iff.2 ⟨by simp, by decide⟩
  have same :
      Text.sameAscii (String.ofList (Text.trimChars "multipart".toList)) "multipart" = true := by
    decide +kernel
  simp only [ContentType.isMultipart, whole, trimmed, cut, same]

/-- A multipart type has the boundary that is first among its parameters, if that is not empty. -/
theorem boundary?_of_multipart {contentType : String} {parameters : List Char} (noMark : ';' ∉ subtype)
    (written : contentType.toList = "multipart/".toList ++ subtype ++ ';' :: parameters) :
    ContentType.boundary? contentType =
      (((ParameterList.parseChars parameters).find? fun (name, _) =>
        Text.sameAscii name "boundary").map Prod.snd).filter (!·.isEmpty) := by
  have free : ';' ∉ "multipart/".toList ++ subtype := by
    rw [List.mem_append]
    exact fun here => here.elim (absurd · (by decide)) noMark
  have cut := cut?_eq_some_iff.2 ⟨written, free⟩
  simp only [ContentType.boundary?, cut, isMultipart_append, if_true]

/-- The boundary is found in the media type of a written body. -/
theorem boundary?_contentType {w : Writer} (noMark : ';' ∉ w.subtype.toList) :
    ContentType.boundary? w.contentType = some w.boundary.text := by
  have written : w.contentType.toList = "multipart/".toList ++ w.subtype.toList ++ ';' ::
      ' ' :: ("boundary".toList ++ '=' :: ((ParameterList.quote w.boundary.text).toList ++ [])) := by
    rw [toList_quote_text]
    simp [Writer.contentType]
  have token : isToken "boundary".toList = true := by decide +kernel
  have parameters := ParameterList.parseChars_quoted token w.boundary.text []
  rw [ParameterList.parseChars_nil, encodeBreaks_text] at parameters
  have same : Text.sameAscii (String.ofList "boundary".toList) "boundary" = true := by decide +kernel
  rw [boundary?_of_multipart noMark written, ParameterList.parseChars_separator (by decide), parameters]
  simp only [List.find?_cons, same, Option.map_some, Option.filter_some, text_ne_empty,
    Bool.not_false, if_true]

end ContentTypeLemmas

/-! ## Reading back -/

/-- A reader of a written body, in whatever pieces it comes, records its preamble, one section with the
same content for every part, and its epilogue; tidy headers are the same as well. -/
theorem written_is_read_back {w : Writer} {chunks : List Bytes} (noMark : ';' ∉ w.subtype.toList)
    (written : w.toBytes = .ok chunks.flatten)
    (small : ∀ part ∈ w.parts, part.headers.entries ≠ [] →
      (part.headers.render ++ Bytes.crlf).length ≤ 16384) :
    (∃ r, Reader.ofContentType (Script.mk (chunks.map .data)) w.contentType .utf8 = .ok r ∧
      ∀ mode times, (r.transcript mode ⟨.all mode, []⟩ (times + 1)).1 =
        .preamble (w.preamble.getD []) :: (sectionEntries (w.parts.map Part.reread) ++
          .epilogue (w.epilogue.getD []) :: List.replicate (times + 1) .over)) ∧
      ∀ part ∈ w.parts, part.reread.content = part.content ∧
        (part.headers.Tidy → part.reread.headers = part.headers) := by
  have parses := parses_of_written written small
  have gives : Gives Limits.default.chunkSize (Script.mk (chunks.map .data)) chunks.flatten :=
    Script.gives (by decide) chunks
  obtain ⟨r, made, -, foresees⟩ : ∃ r, Reader.new (Script.mk (chunks.map .data)) w.boundary.text .utf8
      .default = .ok r ∧ r.charset = .utf8 ∧
        r.Foresees (wholeItems (w.preamble.getD []) (w.parts.map Part.reread) (w.epilogue.getD [])) :=
    Reader.new_foresees gives parses
  refine ⟨⟨r, ?_, fun mode times => Reader.transcript_of_whole times foresees⟩,
    fun part here => ⟨rfl, reread_of_tidy⟩⟩
  rw [Reader.ofContentType, boundary?_contentType noMark]
  exact made

/-- A body around its own boundary, which needs its quotes. -/
def sampleWriter : Writer where
  boundary := ⟨"a b='c", by decide +kernel⟩
  subtype := "mixed"
  preamble := some (Utf8.encode "--a\r")
  epilogue := some (Utf8.encode "\r\n--a b='c")
  parts := [⟨⟨[("A", "1: 2"), ("A", "")]⟩, Utf8.encode "--a b='c--\r"⟩, ⟨.empty, []⟩]

theorem written_is_read_back_sample :
    ∃ r, Reader.ofContentType (Script.mk [.data sampleWriter.chunks.flatten])
        "multipart/mixed; boundary=\"a b='c\"" .utf8 = .ok r ∧
      (r.transcript .polled ⟨.all .polled, []⟩ 1).1 = .preamble (Utf8.encode "--a\r") ::
        (sectionEntries sampleWriter.parts ++ [.epilogue (Utf8.encode "\r\n--a b='c"), .over]) := by
  have written := Writer.toBytes_eq_ok_iff.2
    ⟨(by decide +kernel : sampleWriter.refusal? = none), rfl⟩
  obtain ⟨⟨r, made, read⟩, -⟩ := @written_is_read_back sampleWriter [sampleWriter.chunks.flatten]
    (by decide) (by rw [List.flatten_singleton]; exact written) (by decide +kernel)
  have same : sampleWriter.parts.map Part.reread = sampleWriter.parts := by decide +kernel
  rw [same] at read
  have contentType : sampleWriter.contentType = "multipart/mixed; boundary=\"a b='c\"" := by
    decide +kernel
  rw [contentType] at made
  exact ⟨r, made, read .polled 0⟩

end HttpForms.Multipart
