import HttpForms.Multipart.Scanner.Progress
import HttpForms.Proofs.Scanner.Search

/-!
# What a scanner is about to find

The input of a scanner is what it holds and what is still to come. Taken together these have a parse,
and `Foresees` says which: in each phase the items that are left are those the grammar gives from the
place the phase stands for. Input that is fed only moves from what is to come into the buffer, so it
changes no item, and a step that takes something out of the buffer takes the item of it off the front.

Results:

1. `Foresees.feed`, `Foresees.finish` — input that arrives changes nothing that is foreseen;
2. `new_foresees` — a new scanner foresees the parse of the whole body;
3. `format_next`, `format_readBody` — what is known of the body as a whole stays as it is.
-/

namespace HttpForms.Multipart

/-- The items from the next step on, which passes over what is left of a section. -/
def pastContent : List Item → List Item
  | .content _ :: more => more
  | items => items

theorem Format.Parses.pastContent_eq {f : Format} {kind : LineKind} {text : Bytes}
    {items : List Item} (parses : f.Parses (.behind kind) text items) : pastContent items = items := by
  cases parses <;> rfl

/-- The preamble began with `held` and goes on in the text. -/
inductive PreambleAhead (f : Format) (held : Bytes) : Bytes → List Item → Prop
  | line {kind text before after items} : FirstLine f.boundary kind before after text →
      f.Parses (.behind kind) after items →
      PreambleAhead f held text (.preamble (held ++ before) :: items)
  | noLine {text} : NoLine f.boundary text →
      PreambleAhead f held text [.failed .unterminatedPreamble]

section PreambleLemmas

variable {f : Format} {held before after text : Bytes} {items : List Item} {kind : LineKind} {n : Nat}

theorem PreambleAhead.of_front (parses : f.Parses .front text items)
    (none : ∀ kind after, ¬ OpensWith f.boundary kind after text) : PreambleAhead f [] text items := by
  cases parses with
  | atOnce opens => exact absurd opens (none _ _)
  | preamble _ line rest => exact .line line rest
  | noLine _ none => exact .noLine none

theorem PreambleAhead.of_firstLine (ahead : PreambleAhead f held text items)
    (line : FirstLine f.boundary kind before after text) :
    ∃ more, items = .preamble (held ++ before) :: more ∧ f.Parses (.behind kind) after more := by
  cases ahead with
  | line line' rest =>
    obtain ⟨rfl, rfl, rfl⟩ := firstLine_unique line line'
    exact ⟨_, rfl, rest⟩
  | noLine none => exact absurd line.line (none _ _ _)

theorem PreambleAhead.of_noLine (ahead : PreambleAhead f held text items)
    (none : NoLine f.boundary text) : items = [.failed .unterminatedPreamble] := by
  cases ahead with
  | line line => exact absurd line.line (none _ _ _)
  | noLine => rfl

/-- Octets before the first line can be put with those that are held. -/
theorem PreambleAhead.hold (ahead : PreambleAhead f held text items)
    (none : ∀ place < n, ¬ Stands f.boundary text place) :
    PreambleAhead f (held ++ text.take n) (text.drop n) items := by
  cases ahead with
  | @line kind _ before after items line rest =>
    -- No delimiter stands in what is held, so the first line begins behind it.
    have le : n ≤ before.length := by
      rcases Nat.lt_or_ge before.length n with lt | ge
      · exact absurd line.line.stands (none _ lt)
      · exact ge
    obtain ⟨marker, -, split⟩ := line.line
    have taken : held ++ before = held ++ text.take n ++ before.drop n := by
      rw [List.append_assoc, split, List.take_append_of_le_length le, List.take_append_drop]
    rw [taken]
    exact .line (line.drop le) rest
  | noLine none => exact .noLine none.drop

end PreambleLemmas

namespace Scanner

/-- What the scanner knows of the body as a whole. -/
def format (s : Scanner) : Format :=
  ⟨s.boundary, s.charset, s.headerLimit⟩

/-- Nothing that the buffer has passed over begins an end of headers. -/
def NoHeaderEnd (buffer : SearchBuffer) (rest : Bytes) : Prop :=
  ∀ before after, buffer.bytes ++ rest = before ++ (headerEnd ++ after) →
    buffer.scanned ≤ before.length

/-- With `rest` still to come, the items are what is left of the body. -/
def Foresees (s : Scanner) (rest : Bytes) (items : List Item) : Prop :=
  (s.ended = true → rest = []) ∧
    match s.phase with
    | .start => s.format.Parses .front (s.buffer.bytes ++ rest) items
    | .preamble held =>
      s.buffer.Clear s.boundary rest ∧ PreambleAhead s.format held (s.buffer.bytes ++ rest) items
    | .headers =>
      NoHeaderEnd s.buffer rest ∧ s.format.Parses (.behind .opening) (s.buffer.bytes ++ rest) items
    | .body =>
      s.buffer.Clear s.boundary rest ∧ s.format.Parses .content (s.buffer.bytes ++ rest) items
    | .closed => s.format.Parses (.behind .closing) (s.buffer.bytes ++ rest) items
    | .epilogue held => items = [.epilogue (held ++ (s.buffer.bytes ++ rest))]
    | .done | .failed _ => items = []

section ForesightLemmas

variable {s : Scanner} {rest chunk : Bytes} {items : List Item} {b : Boundary} {charset : Charset}
  {limits : Limits}

/-! ## Input -/

theorem NoHeaderEnd.extend {buffer : SearchBuffer} (none : NoHeaderEnd buffer (chunk ++ rest)) :
    NoHeaderEnd (buffer.extend chunk) rest := by
  intro before after split
  rw [SearchBuffer.extend, List.append_assoc] at split
  exact none before after split

theorem phase_feed (chunk : Bytes) : (s.feed chunk).phase = s.phase := by
  unfold feed
  split <;> rfl

theorem Foresees.feed (foresees : s.Foresees (chunk ++ rest) items) :
    (s.feed chunk).Foresees rest items := by
  obtain ⟨finished, ahead⟩ := foresees
  unfold Scanner.feed
  split
  · rename_i ended
    obtain ⟨rfl, rfl⟩ := List.append_eq_nil_iff.1 (finished ended)
    exact ⟨fun _ => rfl, ahead⟩
  · rename_i open_
    have whole : (s.buffer.extend chunk).bytes ++ rest = s.buffer.bytes ++ (chunk ++ rest) :=
      List.append_assoc _ _ _
    refine ⟨fun ended => absurd ended open_, ?_⟩
    simp only
    rw [whole]
    cases phase : s.phase <;> rw [phase] at ahead
    case preamble held => exact ⟨ahead.1.extend, ahead.2⟩
    case headers => exact ⟨ahead.1.extend, ahead.2⟩
    case body => exact ⟨ahead.1.extend, ahead.2⟩
    all_goals exact ahead

theorem Foresees.finish (foresees : s.Foresees [] items) : s.finish.Foresees [] items :=
  ⟨fun _ => rfl, foresees.2⟩

theorem new_foresees {input : Bytes} :
    (new b charset limits).Foresees input items ↔
      Format.Parses ⟨b, charset, limits.headerLimit⟩ .front input items := by
  constructor
  · exact fun foresees => foresees.2
  · exact fun parses => ⟨fun ended => Bool.noConfusion ended, parses⟩

theorem Foresees.over (foresees : s.Foresees rest items) (dead : s.phase.isLive = false) :
    items = [] := by
  have ahead := foresees.2
  cases phase : s.phase <;> rw [phase] at ahead dead
  case done => exact ahead
  case failed => exact ahead
  all_goals exact Bool.noConfusion dead

theorem Foresees.content_cons (foresees : s.Foresees rest items) (body : s.phase = .body) :
    ∃ content more, items = .content content :: more := by
  have ahead := foresees.2
  rw [body] at ahead
  exact ahead.2.content_cons

/-- Behind a boundary line no content is ahead. -/
theorem Foresees.behind (foresees : s.Foresees rest items)
    (phase : s.phase = .headers ∨ s.phase = .closed) : pastContent items = items := by
  have ahead := foresees.2
  rcases phase with phase | phase <;> rw [phase] at ahead
  · exact ahead.2.pastContent_eq
  · exact Format.Parses.pastContent_eq ahead

end ForesightLemmas

/-! ## What no answer changes -/

section FormatLemmas

variable {s : Scanner}

theorem format_await {α : Type} (more : α) (failure : Failure) :
    (s.await more failure).2.format = s.format := by
  unfold await
  split <;> rfl

theorem format_nextHeaders (s : Scanner) : s.nextHeaders.2.format = s.format := by
  unfold nextHeaders
  split
  · rfl
  split
  · exact format_await _ _
  split
  · split <;> rfl
  · split
    · rfl
    · exact format_await _ _

theorem format_nextEpilogue (s : Scanner) (held : Bytes) :
    (s.nextEpilogue held).2.format = s.format := by
  unfold nextEpilogue
  simp only
  split <;> rfl

theorem format_nextClosed (s : Scanner) : s.nextClosed.2.format = s.format := by
  unfold nextClosed
  split
  · rfl
  · exact format_nextEpilogue _ _

theorem format_nextPreamble (s : Scanner) (held : Bytes) :
    (s.nextPreamble held).2.format = s.format := by
  unfold nextPreamble
  split
  · exact format_await _ _
  · exact format_await _ _
  · rfl
  · rfl

theorem format_nextStart (s : Scanner) : s.nextStart.2.format = s.format := by
  unfold nextStart
  split
  · rfl
  split
  · exact format_nextPreamble _ _
  split
  · rfl
  · rfl
  · exact format_await _ _
  · exact format_nextPreamble _ _

theorem format_available (s : Scanner) : s.available.2.format = s.format := by
  unfold available
  split
  · split
    · rfl
    · rfl
    · exact format_await _ _
    · rfl
  · exact format_await _ _
  · rfl

theorem format_nextBody (s : Scanner) : s.nextBody.2.format = s.format := by
  fun_induction nextBody s with
  | case1 s n t front ih =>
    have same := format_available s
    rw [front] at same
    exact ih.trans same
  | case2 s t front
  | case5 s failure t front =>
    have same := format_available s
    rwa [front] at same
  | case3 s t front =>
    have same := format_available s
    rw [front] at same
    exact (format_nextHeaders t).trans same
  | case4 s t front =>
    have same := format_available s
    rw [front] at same
    exact (format_nextClosed t).trans same

/-- No step changes what the scanner knows of the body as a whole. -/
theorem format_next (s : Scanner) : s.next.2.format = s.format := by
  unfold next
  split
  · exact format_nextStart s
  · exact format_nextPreamble s _
  · exact format_nextHeaders s
  · exact format_nextBody s
  · exact format_nextClosed s
  · exact format_nextEpilogue s _
  · rfl
  · rfl

theorem format_readBody (s : Scanner) (room : Nat) : (s.readBody room).2.format = s.format := by
  have same := format_available s
  unfold readBody
  split
  · rfl
  · rcases front : s.available with ⟨_ | _ | _ | _ | _, t⟩ <;> rw [front] at same <;> exact same
  · rfl

end FormatLemmas

end Scanner

end HttpForms.Multipart
