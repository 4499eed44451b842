import Mathlib.Data.Nat.Find
import HttpForms.Proofs.Body.Delimiter

/-!
# Taking a body apart

A body can be taken apart from any place on, and octets of content that hold no delimiter can be
passed over without a loss.

Results:

1. `Format.Parses.passOver` — what is left of content parses as the rest of it;
2. `Format.exists_parses` — any octets parse as some items.
-/

namespace HttpForms.Multipart

open Marker (classify)

variable {b : Boundary} {kind : LineKind} {before after text given : Bytes} {n place : Nat}

/-! ## Passing over content -/

theorem Stands.of_drop (stands : Stands b (text.drop n) place) : Stands b text (n + place) := by
  obtain ⟨before, rest, rfl, split, decided⟩ := stands
  have inside : n ≤ text.length := by
    rcases Nat.lt_or_ge text.length n with lt | ge
    · rw [List.drop_eq_nil_of_le (Nat.le_of_lt lt)] at split
      simp [Boundary.delimiter] at split
    · exact ge
  refine ⟨text.take n ++ before, rest, by simp [inside], ?_, decided⟩
  rw [List.append_assoc, ← split, List.take_append_drop]

theorem LineAt.of_drop (line : LineAt b kind before after (text.drop n)) :
    LineAt b kind (text.take n ++ before) after text := by
  obtain ⟨marker, is, split⟩ := line
  refine ⟨marker, is, ?_⟩
  rw [List.append_assoc, ← split, List.take_append_drop]

theorem NoLine.drop (none : NoLine b text) : NoLine b (text.drop n) :=
  fun _ _ _ line => none _ _ _ line.of_drop

theorem FirstLine.drop (line : FirstLine b kind before after text) (le : n ≤ before.length) :
    FirstLine b kind (before.drop n) after (text.drop n) := by
  obtain ⟨marker, is, split⟩ := line.line
  refine ⟨⟨marker, is, ?_⟩, fun {_ before' _} line' => ?_⟩
  · rw [split, List.drop_append_of_le_length le]
  · have le' := line.first line'.of_drop
    simp only [List.length_append, List.length_take, List.length_drop] at le' ⊢
    omega

/-- Content that is passed over is part of what can be read of it. -/
theorem Released.drop (released : Released b text given) (le : n ≤ given.length) :
    Released b (text.drop n) (given.drop n) := by
  cases released with
  | @cut _ rest cut =>
    rw [List.drop_append_of_le_length le]
    exact .cut cut
  | @tail _ none =>
    have short : n ≤ text.length - (b.delimiter.length - 1) := by simpa using le
    rw [List.drop_take, show text.length - (b.delimiter.length - 1) - n =
      (text.drop n).length - (b.delimiter.length - 1) by rw [List.length_drop]; omega]
    refine .tail fun given rest split => none (text.take n ++ given) rest ?_
    rw [List.append_assoc, ← split, List.take_append_drop]

/-- Octets before which no delimiter stands can be read. -/
theorem Released.le_length (released : Released b text given)
    (none : ∀ place < n, ¬ Stands b text place) (room : n + b.delimiter.length ≤ text.length + 1) :
    n ≤ given.length := by
  cases released with
  | @cut _ rest cut =>
    rcases Nat.lt_or_ge given.length n with lt | ge
    · exact absurd ⟨given, rest, rfl, rfl, by simp [cut.classify_eq]⟩ (none _ lt)
    · exact ge
  | tail =>
    have := Boundary.delimiter_pos b
    rw [List.length_take]
    omega

theorem Released.take_eq (released : Released b text given) (le : n ≤ given.length) :
    given.take n = text.take n := by
  cases released with
  | cut => rw [List.take_append_of_le_length le]
  | tail =>
    have short : n ≤ text.length - (b.delimiter.length - 1) := by simpa using le
    rw [List.take_take, Nat.min_eq_left short]

/-- A delimiter at the front that is cut off lets nothing be read. -/
theorem Released.eq_nil_of_cut {rest : Bytes} (released : Released b (b.delimiter ++ rest) given)
    (cut : IsCutMarker rest) : given = [] := by
  generalize whole : b.delimiter ++ rest = text at released
  cases released with
  | cut =>
    have le : given.length ≤ ([] : Bytes).length := no_delimiter_after_cut cut whole
    exact List.eq_nil_of_length_eq_zero (Nat.le_zero.1 le)
  | tail none => exact absurd cut (none [] rest whole.symm)

/-- A text that is shorter than a delimiter lets nothing be read. -/
theorem Released.eq_nil_of_short (released : Released b text given)
    (short : text.length < b.delimiter.length) : given = [] := by
  cases released with
  | cut =>
    simp only [List.length_append] at short
    omega
  | tail =>
    rw [Nat.sub_eq_zero_of_le (Nat.le_sub_one_of_lt short)]
    rfl

theorem Format.Parses.passOver {f : Format} {items : List Item} {k : Nat}
    (parses : f.Parses .content text items)
    (none : ∀ place < k, ¬ Stands f.boundary text place)
    (room : k + f.boundary.delimiter.length ≤ text.length + 1) (le : n ≤ k) :
    ∃ content more, items = .content (text.take n ++ content) :: more ∧
      f.Parses .content (text.drop n) (.content content :: more) := by
  cases parses with
  | @content kind _ before after more line rest =>
    have le' : n ≤ before.length := by
      rcases Nat.lt_or_ge before.length k with lt | ge
      · exact absurd line.line.stands (none _ lt)
      · omega
    refine ⟨before.drop n, more, ?_, .content (line.drop le') rest⟩
    obtain ⟨marker, -, split⟩ := line.line
    rw [split, List.take_append_of_le_length le', List.take_append_drop]
  | @unterminated _ given noLine released =>
    have le' : n ≤ given.length := Nat.le_trans le (released.le_length none room)
    refine ⟨given.drop n, _, ?_, .unterminated noLine.drop (released.drop le')⟩
    rw [← released.take_eq le', List.take_append_drop]

/-! ## What is found decides -/

section Decisions

variable {f : Format} {items : List Item} {block : Bytes}

theorem OpensWith.classify (opens : OpensWith b kind after text) :
    ∃ rest n, text = b.dashed ++ rest ∧ (classify rest).line? = some (kind, n) ∧
      after = rest.drop n := by
  obtain ⟨marker, is, rfl⟩ := opens
  exact ⟨marker ++ after, marker.length, rfl, is.classify_append after, by rw [List.drop_left]⟩

theorem opensWith_unique {kind' : LineKind} {after' : Bytes} (opens : OpensWith b kind after text)
    (opens' : OpensWith b kind' after' text) : kind = kind' ∧ after = after' := by
  obtain ⟨rest, n, rfl, line, rfl⟩ := opens.classify
  obtain ⟨rest', n', same, line', rfl⟩ := opens'.classify
  obtain rfl := List.append_cancel_left same
  rw [line, Option.some.injEq, Prod.mk.injEq] at line'
  obtain ⟨rfl, rfl⟩ := line'
  exact ⟨rfl, rfl⟩

theorem firstBlank_unique {block' after' : Bytes} (blank : FirstBlank block after text)
    (blank' : FirstBlank block' after' text) : block = block' ∧ after = after' := by
  have length := Nat.le_antisymm (blank.first blank'.split) (blank'.first blank.split)
  obtain ⟨rfl, behind⟩ := List.append_inj (blank.split.symm.trans blank'.split) length
  exact ⟨rfl, List.append_cancel_left behind⟩

namespace Format.Parses

theorem of_opens (parses : f.Parses .front text items) (opens : OpensWith f.boundary kind after text) :
    ∃ more, items = .preamble [] :: more ∧ f.Parses (.behind kind) after more := by
  cases parses with
  | atOnce opens' rest =>
    obtain ⟨rfl, rfl⟩ := opensWith_unique opens opens'
    exact ⟨_, rfl, rest⟩
  | preamble none => exact absurd opens (none _ _)
  | noLine none => exact absurd opens (none _ _)

theorem of_firstLine (parses : f.Parses .content text items)
    (line : FirstLine f.boundary kind before after text) :
    ∃ more, items = .content before :: more ∧ f.Parses (.behind kind) after more := by
  cases parses with
  | content line' rest =>
    obtain ⟨rfl, rfl, rfl⟩ := firstLine_unique line line'
    exact ⟨_, rfl, rest⟩
  | unterminated none => exact absurd line.line (none _ _ _)

theorem of_noLine (parses : f.Parses .content text items) (none : NoLine f.boundary text) :
    ∃ given, items = [.content given, .failed .unterminatedBody] ∧
      Released f.boundary text given := by
  cases parses with
  | content line => exact absurd line.line (none _ _ _)
  | unterminated _ released => exact ⟨_, rfl, released⟩

theorem content_cons (parses : f.Parses .content text items) :
    ∃ content more, items = .content content :: more := by
  cases parses with
  | content => exact ⟨_, _, rfl⟩
  | unterminated => exact ⟨_, _, rfl⟩

theorem of_crlf (parses : f.Parses (.behind .opening) (Bytes.crlf ++ after) items) :
    ∃ content more, items = .opened .empty :: .content content :: more ∧
      f.Parses .content after (.content content :: more) := by
  have front : Bytes.crlf <+: Bytes.crlf ++ after := List.prefix_append _ _
  generalize whole : Bytes.crlf ++ after = text at parses front
  cases parses with
  | bare rest =>
    obtain rfl := List.append_cancel_left whole
    obtain ⟨content, more, rfl⟩ := rest.content_cons
    exact ⟨content, more, rfl, rest⟩
  | headers bare | tooLarge bare | overflow bare => exact absurd front bare
  | noBlank _ bare => exact absurd front bare

theorem of_blank (parses : f.Parses (.behind .opening) text items) (bare : ¬ Bytes.crlf <+: text)
    (blank : FirstBlank block after text)
    (fits : block.length + Scanner.headerEnd.length ≤ f.headerLimit) :
    ∃ content more, items = .opened (Headers.parse f.charset block) :: .content content :: more ∧
      f.Parses .content after (.content content :: more) := by
  cases parses with
  | bare => exact absurd (List.prefix_append _ _) bare
  | headers _ blank' _ rest =>
    obtain ⟨rfl, rfl⟩ := firstBlank_unique blank blank'
    obtain ⟨content, more, rfl⟩ := rest.content_cons
    exact ⟨content, more, rfl, rest⟩
  | tooLarge _ blank' large =>
    obtain ⟨rfl, rfl⟩ := firstBlank_unique blank blank'
    omega
  | overflow _ none => exact absurd blank.split (none _ _)
  | noBlank none => exact absurd blank.split (none _ _)

/-- However the headers go on: those that end do so behind the limit. -/
theorem of_large (parses : f.Parses (.behind .opening) text items) (bare : ¬ Bytes.crlf <+: text)
    (two : Bytes.crlf.length ≤ text.length) (large : f.headerLimit < text.length)
    (late : ∀ {block after}, FirstBlank block after text →
      f.headerLimit < block.length + Scanner.headerEnd.length) :
    items = [.failed (.headersTooLarge f.headerLimit)] := by
  cases parses with
  | bare => exact absurd (List.prefix_append _ _) bare
  | headers _ blank fits =>
    have lt := late blank
    omega
  | tooLarge => rfl
  | overflow => rfl
  | noBlank _ _ small =>
    have le := small two
    omega

theorem of_noBlank (parses : f.Parses (.behind .opening) text items) (bare : ¬ Bytes.crlf <+: text)
    (none : NoBlank text) (small : Bytes.crlf.length ≤ text.length → text.length ≤ f.headerLimit) :
    items = [.failed .unterminatedHeaders] := by
  cases parses with
  | bare => exact absurd (List.prefix_append _ _) bare
  | headers _ blank => exact absurd blank.split (none _ _)
  | tooLarge _ blank => exact absurd blank.split (none _ _)
  | overflow _ _ two large =>
    have le := small two
    omega
  | noBlank => rfl

theorem of_closing_crlf (parses : f.Parses (.behind .closing) (Bytes.crlf ++ after) items) :
    items = [.epilogue after] := by
  have front : Bytes.crlf <+: Bytes.crlf ++ after := List.prefix_append _ _
  generalize whole : Bytes.crlf ++ after = text at parses front
  cases parses with
  | epilogue => rw [List.append_cancel_left whole]
  | epilogueAtOnce bare => exact absurd front bare

theorem of_closing (parses : f.Parses (.behind .closing) text items) (bare : ¬ Bytes.crlf <+: text) :
    items = [.epilogue text] := by
  cases parses with
  | epilogue => exact absurd (List.prefix_append _ _) bare
  | epilogueAtOnce => rfl

end Format.Parses

end Decisions

/-! ## Any octets parse -/

theorem exists_firstLine_or_noLine (b : Boundary) (text : Bytes) :
    (∃ kind before after, FirstLine b kind before after text) ∨ NoLine b text := by
  classical
  by_cases any : ∃ n kind before after, before.length = n ∧ LineAt b kind before after text
  · obtain ⟨kind, before, after, same, line⟩ := Nat.find_spec any
    refine .inl ⟨kind, before, after, line, fun {kind' before' after'} line' => ?_⟩
    rw [same]
    exact Nat.find_min' any ⟨kind', before', after', rfl, line'⟩
  · exact .inr fun kind before after line => any ⟨_, kind, before, after, rfl, line⟩

theorem exists_firstBlank_or_noBlank (text : Bytes) :
    (∃ block after, FirstBlank block after text) ∨ NoBlank text := by
  classical
  by_cases any : ∃ n block after, block.length = n ∧
      text = block ++ (Scanner.headerEnd ++ after)
  · obtain ⟨block, after, same, split⟩ := Nat.find_spec any
    refine .inl ⟨block, after, split, fun {block' after'} split' => ?_⟩
    rw [same]
    exact Nat.find_min' any ⟨block', after', rfl, split'⟩
  · exact .inr fun block after split => any ⟨_, block, after, rfl, split⟩

theorem exists_released (b : Boundary) (text : Bytes) : ∃ given, Released b text given := by
  by_cases any : ∃ given rest, text = given ++ (b.delimiter ++ rest) ∧ IsCutMarker rest
  · obtain ⟨given, rest, rfl, cut⟩ := any
    exact ⟨given, .cut cut⟩
  · exact ⟨_, .tail fun given rest split cut => any ⟨given, rest, split, cut⟩⟩

theorem LineAt.length_lt (line : LineAt b kind before after text) : after.length < text.length := by
  obtain ⟨marker, -, rfl⟩ := line
  have := Boundary.delimiter_pos b
  simp only [List.length_append]
  omega

/-- Behind every boundary line and every block of headers there is less left. -/
theorem Format.exists_parses (f : Format) (place : Place) (text : Bytes) :
    ∃ items, f.Parses place text items := by
  induction length : text.length using Nat.strongRecOn generalizing place text with
  | ind length ih =>
    subst length
    cases place with
    | front =>
      by_cases opens : ∃ kind after, OpensWith f.boundary kind after text
      · obtain ⟨kind, after, opens⟩ := opens
        have lt : after.length < text.length := by
          obtain ⟨marker, -, rfl⟩ := opens
          simp only [List.length_append, Boundary.dashed, List.length_cons]
          omega
        obtain ⟨items, rest⟩ := ih _ lt (.behind kind) after rfl
        exact ⟨_, .atOnce opens rest⟩
      · -- A boundary line at the very front is looked for first; it needs no break before it.
        have notOpens : ∀ kind after, ¬ OpensWith f.boundary kind after text :=
          fun kind after here => opens ⟨kind, after, here⟩
        rcases exists_firstLine_or_noLine f.boundary text with ⟨kind, before, after, line⟩ | none
        · obtain ⟨items, rest⟩ := ih _ line.line.length_lt (.behind kind) after rfl
          exact ⟨_, .preamble notOpens line rest⟩
        · exact ⟨_, .noLine notOpens none⟩
    | content =>
      rcases exists_firstLine_or_noLine f.boundary text with ⟨kind, before, after, line⟩ | none
      · obtain ⟨items, rest⟩ := ih _ line.line.length_lt (.behind kind) after rfl
        exact ⟨_, .content line rest⟩
      · obtain ⟨given, released⟩ := exists_released f.boundary text
        exact ⟨_, .unterminated none released⟩
    | behind kind =>
      by_cases front : Bytes.crlf <+: text
      · obtain ⟨after, rfl⟩ := front
        cases kind with
        | closing => exact ⟨_, .epilogue⟩
        | opening =>
          have lt : after.length < (Bytes.crlf ++ after).length := by
            simp only [List.length_append, Bytes.crlf, List.length_cons]
            omega
          obtain ⟨items, rest⟩ := ih _ lt .content after rfl
          exact ⟨_, .bare rest⟩
      cases kind with
      | closing => exact ⟨_, .epilogueAtOnce front⟩
      | opening =>
        rcases exists_firstBlank_or_noBlank text with ⟨block, after, blank⟩ | none
        · by_cases fits : block.length + Scanner.headerEnd.length ≤ f.headerLimit
          · have lt : after.length < text.length := by
              rw [blank.split]
              simp only [List.length_append, Scanner.headerEnd, Bytes.crlf, List.length_cons]
              omega
            obtain ⟨items, rest⟩ := ih _ lt .content after rfl
            exact ⟨_, .headers front blank fits rest⟩
          · exact ⟨_, .tooLarge front blank (Nat.lt_of_not_le fits)⟩
        · by_cases large : Bytes.crlf.length ≤ text.length ∧ f.headerLimit < text.length
          · exact ⟨_, .overflow front none large.1 large.2⟩
          · exact ⟨_, .noBlank none front fun two => Nat.le_of_not_lt fun lt => large ⟨two, lt⟩⟩

end HttpForms.Multipart
