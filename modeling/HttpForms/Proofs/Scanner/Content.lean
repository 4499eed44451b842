import HttpForms.Proofs.Scanner.Framing

/-!
# Content is told as foreseen

In a section the front of the buffer is content as far as the search has come, a boundary line, or
something that more input has to decide. Whether the content is read or passed over, the scanner
comes to the same line behind it.

Results:

1. `next_tells` — the next step is the next item that is foreseen;
2. `readBody_yields` — what is read is the next part of the content that is foreseen.
-/

namespace HttpForms.Multipart.Scanner

open Marker (classify line?)

variable {s : Scanner} {rest content : Bytes} {items more : List Item}

/-! ## The front of the buffer -/

/-- What looking at the front of the buffer may say when this content is foreseen, and these items
behind it. -/
def Sees (rest content : Bytes) (more : List Item) : Except Failure Front × Scanner → Prop
  | (.ok .needInput, t) =>
    t.ended = false ∧ t.phase = .body ∧ t.Foresees rest (.content content :: more)
  | (.ok (.content n), t) =>
    0 < n ∧ n ≤ t.buffer.bytes.length ∧ t.phase = .body ∧ ∀ m ≤ n, ∃ left,
      content = t.buffer.bytes.take m ++ left ∧
        ({ t with buffer := t.buffer.discard m } : Scanner).Foresees rest (.content left :: more)
  | (.ok .opens, t) => content = [] ∧ t.phase = .headers ∧ t.Foresees rest more
  | (.ok .closes, t) => content = [] ∧ t.phase = .closed ∧ t.Foresees rest more
  | (.error failure, t) =>
    content = [] ∧ more = [.failed failure] ∧ t.phase = .failed failure.replay ∧ t.Foresees rest []

theorem sees_await (ended : s.ended = true → rest = [])
    (phase : s.phase = .body) (waits : s.Foresees rest (.content content :: more))
    (fails : s.ended = true → content = [] ∧ more = [.failed .unterminatedBody]) :
    Sees rest content more (s.await .needInput .unterminatedBody) := by
  unfold await
  split
  · rename_i finished
    exact ⟨(fails finished).1, (fails finished).2, rfl, ended, rfl⟩
  · rename_i open_
    exact ⟨by simpa using open_, phase, waits⟩

/-- What the search has passed over can be given away, all of it or a front of it. -/
theorem sees_content (ended : s.ended = true → rest = [])
    (phase : s.phase = .body) (clear : s.buffer.Clear s.boundary rest) (positive : 0 < s.buffer.scanned)
    (parses : s.format.Parses .content (s.buffer.bytes ++ rest) (.content content :: more)) :
    Sees rest content more (.ok (.content s.buffer.scanned), s) := by
  have within := clear.within
  have width := Boundary.delimiter_pos s.boundary
  have inside : s.buffer.scanned ≤ s.buffer.bytes.length := by omega
  refine ⟨positive, inside, phase, fun m le => ?_⟩
  have room : s.buffer.scanned + s.boundary.delimiter.length ≤
      (s.buffer.bytes ++ rest).length + 1 := by
    rw [List.length_append]
    omega
  obtain ⟨left, more', same, onward⟩ := parses.passOver clear.none room le
  simp only [List.cons.injEq, Item.content.injEq] at same
  obtain ⟨rfl, rfl⟩ := same
  have le' : m ≤ s.buffer.bytes.length := Nat.le_trans le inside
  refine ⟨left, by rw [List.take_append_of_le_length le'], ended, ?_⟩
  rw [List.drop_append_of_le_length le'] at onward
  simp only [phase]
  exact ⟨clear.discard le le', onward⟩

/-- Content that nothing can be read of, and that no line ends, is not terminated. -/
theorem unterminated_of_unreadable {f : Format} {text : Bytes}
    (parses : f.Parses .content text (.content content :: more)) (none : NoLine f.boundary text)
    (unreadable : ∀ {given}, Released f.boundary text given → given = []) :
    content = [] ∧ more = [.failed .unterminatedBody] := by
  obtain ⟨given, same, released⟩ := parses.of_noLine none
  simp only [List.cons.injEq, Item.content.injEq] at same
  obtain ⟨rfl, rfl⟩ := same
  exact ⟨unreadable released, rfl⟩

section AvailableLemmas

variable {buffer : SearchBuffer} {kind : LineKind} {n : Nat} (ended : s.ended = true → rest = [])
  (clear : s.buffer.Clear s.boundary rest)
  (parses : s.format.Parses .content (s.buffer.bytes ++ rest) (.content content :: more))

include clear parses

/-- A boundary line at the front ends the content. -/
theorem content_of_front_line (front : s.buffer.find s.boundary.delimiter = (.found 0, buffer))
    (line : (classify (buffer.bytes.drop s.boundary.delimiter.length)).line? = some (kind, n)) :
    content = [] ∧ s.format.Parses (.behind kind)
      (buffer.bytes.drop (s.boundary.delimiter.length + n) ++ rest) more := by
  have here := firstLine_of_found clear front (by rw [Nat.zero_add]; exact line)
  simp only [Nat.zero_add, List.take_zero] at here
  obtain ⟨later, same, onward⟩ := parses.of_firstLine here
  simp only [List.cons.injEq, Item.content.injEq] at same
  obtain ⟨rfl, rfl⟩ := same
  obtain ⟨rfl, -, -⟩ := SearchBuffer.find_found front
  exact ⟨rfl, onward⟩

include ended

/-- A delimiter at the front is a line, or a look-alike, or has to wait for its marker. -/
theorem available_front_sees (phase : s.phase = .body)
    (front : s.buffer.find s.boundary.delimiter = (.found 0, buffer)) :
    Sees rest content more s.available := by
  have clear' := clear.find front
  have ends {kind : LineKind} {n : Nat} :=
    @content_of_front_line s rest content more buffer kind n clear parses front
  obtain ⟨-, whole⟩ := SearchBuffer.split_of_found front rest
  simp only [Nat.zero_add, List.take_zero, List.nil_append] at whole
  rw [available, front]
  obtain ⟨rfl, -, -⟩ := SearchBuffer.find_found front
  simp only at ends whole ⊢
  split
  · rename_i length opens
    obtain ⟨nothing, onward⟩ := ends (by rw [opens]; rfl)
    exact ⟨nothing, rfl, ended, fun _ _ _ => Nat.zero_le _, onward⟩
  · rename_i closes
    obtain ⟨nothing, onward⟩ := ends (by rw [closes]; rfl)
    exact ⟨nothing, rfl, ended, onward⟩
  · rename_i undecided
    refine sees_await ended phase ⟨ended, ?_⟩ fun finished => ?_
    · rw [show ({ s with buffer := ⟨s.buffer.bytes, 0⟩ } : Scanner).phase = .body from phase]
      exact ⟨clear', parses⟩
    · have nothing := ended finished
      subst nothing
      have isCut := classify_undecided_iff.1 undecided
      rw [whole, List.append_nil] at parses
      exact unterminated_of_unreadable parses
        (@NoLine.of_cut s.boundary [] _ isCut fun _ lt => absurd lt (Nat.not_lt_zero _))
        fun released => released.eq_nil_of_cut isCut
  · rename_i absent
    -- The look-alike is content at least in its first octet, and as far as the search goes on.
    rcases again : (SearchBuffer.reject ⟨s.buffer.bytes, 0⟩ 0).find s.boundary.delimiter with
      ⟨search, buffer⟩
    have clear'' := (clear.reject front (by rw [Nat.zero_add]; exact absent)).find again
    obtain ⟨rfl, le⟩ := SearchBuffer.find_eq again
    exact sees_content (s := { s with buffer := ⟨s.buffer.bytes, search.reached⟩ }) ended phase
      clear'' (Nat.lt_of_lt_of_le Nat.zero_lt_one le) parses

/-- Where all that has arrived is too short for a delimiter, there is nothing to give away. -/
theorem available_short_sees (phase : s.phase = .body)
    (short : s.buffer.find s.boundary.delimiter = (.absent 0, buffer)) :
    Sees rest content more s.available := by
  have clear' := clear.find short
  rw [available, short]
  obtain ⟨rfl, reached⟩ := SearchBuffer.find_absent short
  simp only
  refine sees_await ended phase ⟨ended, ?_⟩ fun finished => ?_
  · rw [show ({ s with buffer := ⟨s.buffer.bytes, 0⟩ } : Scanner).phase = .body from phase]
    exact ⟨clear', parses⟩
  · have nothing := ended finished
    subst nothing
    have width := Boundary.delimiter_pos s.boundary
    rw [List.append_nil] at parses
    have less : s.buffer.bytes.length < s.boundary.delimiter.length := by omega
    exact unterminated_of_unreadable parses
      (noLine_of_short (fun _ lt => absurd lt (Nat.not_lt_zero _)) (by rw [Nat.zero_add]; exact less))
      fun released => released.eq_nil_of_short less

end AvailableLemmas

theorem available_sees
    (foresees : s.Foresees rest (.content content :: more)) (phase : s.phase = .body) :
    Sees rest content more s.available := by
  obtain ⟨ended, ahead⟩ := foresees
  rw [phase] at ahead
  obtain ⟨clear, parses⟩ := ahead
  rcases result : s.buffer.find s.boundary.delimiter with ⟨(_ | place) | (_ | safe), buffer⟩
  · exact available_front_sees ended clear parses phase result
  · have clear' := clear.find result
    obtain ⟨rfl, -⟩ := SearchBuffer.find_eq result
    rw [available, result]
    exact sees_content (s := { s with buffer := ⟨s.buffer.bytes, place + 1⟩ }) ended phase clear'
      (Nat.succ_pos _) parses
  · exact available_short_sees ended clear parses phase result
  · have clear' := clear.find result
    obtain ⟨rfl, -⟩ := SearchBuffer.find_eq result
    rw [available, result]
    exact sees_content (s := { s with buffer := ⟨s.buffer.bytes, safe + 1⟩ }) ended phase clear'
      (Nat.succ_pos _) parses

/-! ## Steps and reads -/

theorem nextBody_tells
    (foresees : s.Foresees rest (.content content :: more)) (phase : s.phase = .body) :
    Tells rest (.content content :: more) s.nextBody := by
  fun_induction nextBody s generalizing content with
  | case1 s n t front ih =>
    have sees := available_sees foresees phase
    rw [front] at sees
    obtain ⟨-, -, body, gives⟩ := sees
    obtain ⟨left, -, onward⟩ := gives n (Nat.le_refl n)
    exact (ih onward body).of_pastContent rfl
  | case2 s t front =>
    have sees := available_sees foresees phase
    rw [front] at sees
    exact ⟨sees.1, _, rfl, sees.2.2⟩
  | case3 s t front =>
    have sees := available_sees foresees phase
    rw [front] at sees
    obtain ⟨-, headers, onward⟩ : _ ∧ _ ∧ t.Foresees rest more := sees
    exact (nextHeaders_tells onward headers).of_pastContent (onward.behind (.inl headers)).symm
  | case4 s t front =>
    have sees := available_sees foresees phase
    rw [front] at sees
    obtain ⟨-, closed, onward⟩ : _ ∧ _ ∧ t.Foresees rest more := sees
    exact (nextClosed_tells onward closed).of_pastContent (onward.behind (.inr closed)).symm
  | case5 s failure t front =>
    have sees := available_sees foresees phase
    rw [front] at sees
    exact sees.2

/-- The next step is the next item that is foreseen. -/
theorem next_tells (foresees : s.Foresees rest items) : Tells rest items s.next := by
  unfold next
  split <;> rename_i phase
  · exact nextStart_tells foresees phase
  · obtain ⟨ended, ahead⟩ := foresees
    rw [phase] at ahead
    exact nextPreamble_tells ended ahead.1 ahead.2
  · exact nextHeaders_tells foresees phase
  · obtain ⟨content, more, rfl⟩ := foresees.content_cons phase
    exact nextBody_tells foresees phase
  · exact nextClosed_tells foresees phase
  · obtain ⟨ended, ahead⟩ := foresees
    rw [phase] at ahead
    exact nextEpilogue_tells ended ahead
  · obtain rfl := foresees.over (by rw [phase]; rfl)
    exact ⟨rfl, foresees⟩
  · obtain rfl := foresees.over (by rw [phase]; rfl)
    exact ⟨rfl, foresees⟩

/-- What reading may give when this content is foreseen, and these items behind it. -/
def Yields (rest content : Bytes) (more : List Item) : Except Failure Portion × Scanner → Prop
  | (.ok .needInput, t) =>
    t.ended = false ∧ t.phase = .body ∧ t.Foresees rest (.content content :: more)
  | (.ok (.data bytes), t) =>
    ∃ left, content = bytes ++ left ∧ bytes ≠ [] ∧ t.phase = .body ∧
      t.Foresees rest (.content left :: more)
  | (.ok .finished, t) =>
    content = [] ∧ (t.phase = .headers ∨ t.phase = .closed) ∧ t.Foresees rest more
  | (.error failure, t) =>
    content = [] ∧ more = [.failed failure] ∧ t.phase = .failed failure.replay ∧ t.Foresees rest []

/-- What is read is the next part of the content that is foreseen. -/
theorem readBody_yields {room : Nat}
    (foresees : s.Foresees rest (.content content :: more)) (phase : s.phase = .body)
    (space : 0 < room) : Yields rest content more (s.readBody room) := by
  have sees := available_sees foresees phase
  unfold readBody
  simp only [phase]
  rcases front : s.available with ⟨result, t⟩
  rw [front] at sees
  match result, sees with
  | .ok (.content n), ⟨positive, inside, body, gives⟩ =>
    obtain ⟨left, same, onward⟩ := gives (min n room) (Nat.min_le_left _ _)
    refine ⟨left, same, fun nothing => ?_, body, onward⟩
    have length := congrArg List.length nothing
    simp only [SearchBuffer.deliver, SearchBuffer.split, List.length_take, List.length_nil] at length
    omega
  | .ok .needInput, sees => exact sees
  | .ok .opens, ⟨nothing, headers, onward⟩ => exact ⟨nothing, .inl headers, onward⟩
  | .ok .closes, ⟨nothing, closed, onward⟩ => exact ⟨nothing, .inr closed, onward⟩
  | .error failure, sees => exact sees

/-- A step that is made tells what is foreseen, and the scanner advances. -/
theorem Foresees.next {answer : Except Failure Step × Scanner} (foresees : s.Foresees rest items)
    (step : s.next = answer) : Tells rest items answer ∧ Advances s answer := by
  subst step
  exact ⟨next_tells foresees, next_advances s⟩

/-- A read that is made gives content that is foreseen, and it takes it from the buffer. -/
theorem Foresees.readBody {room : Nat} {answer : Except Failure Portion × Scanner}
    (foresees : s.Foresees rest (.content content :: more)) (phase : s.phase = .body) (space : 0 < room)
    (read : s.readBody room = answer) : Yields rest content more answer ∧ Reads s answer := by
  subst read
  exact ⟨readBody_yields foresees phase space, readBody_reads s room⟩

/-- Outside of a section, reading changes nothing. -/
theorem readBody_outside {room : Nat} (outside : s.phase ≠ .body) : (s.readBody room).2 = s := by
  unfold readBody
  split
  · rfl
  · rename_i body
    exact absurd body outside
  · rfl

end HttpForms.Multipart.Scanner
