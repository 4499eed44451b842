import HttpForms.Proofs.Scanner.Framing
import HttpForms.Proofs.Scanner.Protocol

/-!
# What a scanner holds back

A scanner that asks for input has given away all it can. What is left in its buffer is less than the
beginning of a boundary line, or a boundary that more input has to decide about; of headers it holds no
more than their limit, and of an epilogue nothing. So a section may be of any length, and the scanner
still holds no more than a line of it.

Only headers need to be known from before: they are searched in the pieces in which they arrive, and
that none of the pieces ended them is what the remembered place of the buffer says.

Results:

1. `next_holds`, `readBody_holds` — what an answer leaves in the buffer;
2. `holds_perform`, `ahead_after` — what is remembered of headers is true behind any operations;
3. `retains_of_hungry` — a scanner that asks for input holds back no more than it may.
-/

namespace HttpForms.Multipart

/-- What a scanner may hold back when it asks for input. At the end, and where reading has stopped, it
asks for none. -/
def Format.Retains (f : Format) : Phase → Bytes → Prop
  | .start, held => held.length < f.boundary.dashed.length ∨
      ∃ rest, IsUndecided rest ∧ held = f.boundary.dashed ++ rest
  | .preamble _, held => held.length < f.boundary.delimiter.length ∨
      ∃ before rest, IsUndecided rest ∧ held = before ++ (f.boundary.delimiter ++ rest)
  | .headers, held => held.length ≤ max 1 f.headerLimit ∧ NoBlank held
  | .body, held => held.length < f.boundary.delimiter.length ∨
      ∃ rest, IsUndecided rest ∧ held = f.boundary.delimiter ++ rest
  | .closed, held => held.length ≤ 1
  | .epilogue _, held => held = []
  | .done, _ | .failed _, _ => False

namespace Scanner

/-- In headers nothing that the buffer has passed over ends them, whatever is still to come. -/
def HeadersAhead (s : Scanner) : Prop :=
  s.phase = .headers → ∀ rest, NoHeaderEnd s.buffer rest

/-- What a step may leave in the buffer. -/
def Holds (f : Format) : Except Failure Step × Scanner → Prop
  | (.ok .needInput, t) => t.HeadersAhead ∧ f.Retains t.phase t.buffer.bytes
  | (_, t) => t.HeadersAhead

/-- What reading content may leave in the buffer. -/
def ReadHolds (f : Format) : Except Failure Portion × Scanner → Prop
  | (.ok .needInput, t) => t.HeadersAhead ∧ f.Retains t.phase t.buffer.bytes
  | (_, t) => t.HeadersAhead

section RetentionLemmas

variable {s t : Scanner} {held : Bytes} {failure : Failure} {operation : Operation}

/-! ## Behind a boundary line -/

theorem ahead_of_scanned (front : s.buffer.scanned = 0) : s.HeadersAhead := by
  intro _ rest before after _
  rw [front]
  exact Nat.zero_le _

theorem ahead_outside (outside : s.phase ≠ .headers) : s.HeadersAhead :=
  fun here => absurd here outside

theorem holds_await {f : Format} (ahead : s.HeadersAhead)
    (retains : f.Retains s.phase s.buffer.bytes) : Holds f (s.await .needInput failure) := by
  unfold await
  split
  · exact ahead_outside (by simp)
  · exact ⟨ahead, retains⟩

/-- Where a search finds no end of headers there is none, if none was passed over before. -/
theorem noBlank_of_absent {safe : Nat} {buffer : SearchBuffer} (ahead : NoHeaderEnd s.buffer [])
    (absent : s.buffer.find headerEnd = (.absent safe, buffer)) : NoBlank s.buffer.bytes := by
  have passed := ahead.find absent
  obtain ⟨rfl, reached⟩ := SearchBuffer.find_absent absent
  intro block after split
  have behind : safe ≤ block.length := passed block after (by rw [List.append_nil]; exact split)
  have length := congrArg List.length split
  have four : headerEnd.length = 4 := rfl
  rw [List.length_append, List.length_append] at length
  omega

theorem nextHeaders_holds (here : s.phase = .headers) (ahead : s.HeadersAhead) :
    Holds s.format s.nextHeaders := by
  unfold nextHeaders
  split
  · exact ahead_of_scanned rfl
  split
  · rename_i short
    refine holds_await ahead ?_
    rw [here]
    have one : s.buffer.bytes.length ≤ 1 := Nat.le_of_lt_succ short
    refine ⟨Nat.le_trans one (Nat.le_max_left _ _), fun block after split => ?_⟩
    rw [split, List.length_append, List.length_append] at one
    have four : headerEnd.length = 4 := rfl
    omega
  split
  · split
    · exact ahead_outside (by simp)
    · exact ahead_of_scanned rfl
  · rename_i absent
    have none := noBlank_of_absent (ahead here []) absent
    have onward := fun rest => (ahead here rest).find absent
    obtain ⟨rfl, -⟩ := SearchBuffer.find_absent absent
    split
    · exact ahead_outside (by simp)
    · rename_i small
      refine holds_await (fun _ => onward) ?_
      simp only [here]
      exact ⟨Nat.le_trans (Nat.le_of_not_lt small) (Nat.le_max_right _ _), none⟩

theorem nextEpilogue_holds (f : Format) (held : Bytes) : Holds f (s.nextEpilogue held) := by
  unfold nextEpilogue
  simp only
  split
  · exact ahead_outside (by simp [enter])
  · refine ⟨ahead_outside (by simp), ?_⟩
    show s.buffer.bytes.drop s.buffer.bytes.length = []
    exact List.drop_length

theorem nextClosed_holds (f : Format) (here : s.phase = .closed) : Holds f s.nextClosed := by
  unfold nextClosed
  split
  · rename_i short
    refine ⟨ahead_outside (by simp [here]), ?_⟩
    rw [here]
    simp only [Bool.and_eq_true, decide_eq_true_eq] at short
    exact Nat.le_of_lt_succ short.1
  · exact nextEpilogue_holds f []

/-! ## Before the first boundary line -/

/-- A buffer with a delimiter in it that is not decided about. -/
theorem split_of_undecided {boundary : Boundary} {b b' : SearchBuffer} {place : Nat}
    (found : b.find boundary.delimiter = (.found place, b'))
    (undecided : Marker.classify (b'.bytes.drop (place + boundary.delimiter.length)) = .undecided) :
    ∃ before rest, before.length = place ∧ IsUndecided rest ∧
      b.bytes = before ++ (boundary.delimiter ++ rest) := by
  obtain ⟨length, split⟩ := SearchBuffer.split_of_found found []
  rw [(SearchBuffer.find_found found).1] at undecided
  simp only [List.append_nil] at split
  exact ⟨_, _, length, isUndecided_of_classify undecided, split⟩

/-- What is left of a buffer in which a boundary line was looked for. -/
theorem seekLine_leaves (boundary : Boundary) (b : SearchBuffer) :
    match (seekLine boundary b).1 with
    | .absent safe => b.bytes.length < safe + boundary.delimiter.length
    | .undecided _ => ∃ before rest, IsUndecided rest ∧ b.bytes = before ++ (boundary.delimiter ++ rest)
    | .opens _ _ | .closes _ _ => True := by
  fun_induction seekLine boundary b with
  | case1 b safe b' search =>
    have reached := (SearchBuffer.find_absent search).2
    have := Boundary.delimiter_pos boundary
    simp only
    omega
  | case2 b place b' search absent ih =>
    obtain ⟨rfl, -, -⟩ := SearchBuffer.find_found search
    exact ih
  | case3 b place b' search undecided =>
    obtain ⟨before, rest, -, is, split⟩ := split_of_undecided search undecided
    exact ⟨before, rest, is, split⟩
  | case4 | case5 => trivial

theorem nextPreamble_holds (held : Bytes) : Holds s.format (s.nextPreamble held) := by
  have leaves := seekLine_leaves s.boundary s.buffer
  have spec := seekLine_spec s.boundary s.buffer
  unfold nextPreamble
  split <;> (rename_i buffer found; rw [found] at leaves spec)
  · rename_i safe
    refine holds_await (ahead_outside (by simp)) (.inl ?_)
    show (buffer.bytes.drop safe).length < s.boundary.delimiter.length
    have bytes : buffer.bytes = s.buffer.bytes := spec.1
    rw [bytes, List.length_drop]
    have short : s.buffer.bytes.length < safe + s.boundary.delimiter.length := leaves
    have := Boundary.delimiter_pos s.boundary
    omega
  · refine holds_await (ahead_outside (by simp)) (.inr ?_)
    have bytes : buffer.bytes = s.buffer.bytes := spec.1
    show ∃ before rest, IsUndecided rest ∧ buffer.bytes = before ++ (s.boundary.delimiter ++ rest)
    rw [bytes]
    exact leaves
  · exact ahead_of_scanned rfl
  · exact ahead_outside (by simp [enter])

theorem nextStart_holds (here : s.phase = .start) : Holds s.format s.nextStart := by
  have outside : s.HeadersAhead := ahead_outside (by simp [here])
  unfold nextStart
  split
  · rename_i short
    refine ⟨outside, ?_⟩
    rw [here]
    simp only [Bool.and_eq_true, decide_eq_true_eq] at short
    exact .inl short.1
  split
  · exact nextPreamble_holds (s := s.enter (.preamble []) 0) []
  · rename_i front
    split
    · exact ahead_of_scanned rfl
    · exact ahead_outside (by simp [enter])
    · rename_i undecided
      refine holds_await outside ?_
      rw [here]
      obtain ⟨rest, split⟩ : s.boundary.dashed <+: s.buffer.bytes := by simpa using front
      rw [← split, List.drop_left] at undecided
      exact .inr ⟨rest, isUndecided_of_classify undecided, split.symm⟩
    · exact nextPreamble_holds (s := s.enter (.preamble []) 0) []

/-! ## In a section -/

/-- Where the front of the buffer asks for input, no more is there than the beginning of a delimiter,
or a delimiter that is not decided about. -/
theorem available_retains (body : s.phase = .body) (waits : s.available = (.ok .needInput, t)) :
    s.format.Retains t.phase t.buffer.bytes := by
  have shows := available_shows s
  have looks := available_looks (s := s) (by rw [body]; rfl)
  rw [waits] at shows looks
  rw [show t.phase = .body from Eq.trans shows body, looks.2.2]
  unfold available at waits
  rcases front : s.buffer.find s.boundary.delimiter with ⟨(_ | place) | (_ | safe), buffer⟩ <;>
    simp only [front] at waits
  · rcases marker : Marker.classify (buffer.bytes.drop s.boundary.delimiter.length) with
      length | _ | _ | _ <;> simp only [marker] at waits
    · cases waits
    · cases waits
    · rw [← Nat.zero_add s.boundary.delimiter.length] at marker
      obtain ⟨before, rest, none, is, split⟩ := split_of_undecided front marker
      rw [List.eq_nil_of_length_eq_zero none, List.nil_append] at split
      exact .inr ⟨rest, is, split⟩
    · cases waits
  · cases waits
  · have reached := (SearchBuffer.find_absent front).2
    have := Boundary.delimiter_pos s.boundary
    refine .inl ?_
    show s.buffer.bytes.length < s.boundary.delimiter.length
    omega
  · cases waits

/-- A boundary line that was taken away leaves nothing that was passed over. -/
theorem scanned_of_opens (opens : s.available = (.ok .opens, t)) : t.buffer.scanned = 0 := by
  unfold available at opens
  split at opens
  · split at opens
    · cases opens
      rfl
    · cases opens
    · exact absurd (await_ok opens).1 nofun
    · cases opens
  · exact absurd (await_ok opens).1 nofun
  · cases opens

theorem nextBody_holds (body : s.phase = .body) : Holds s.format s.nextBody := by
  fun_induction nextBody s with
  | case1 s n t front ih =>
    have shows := available_shows s
    have same := format_available s
    rw [front] at shows same
    have onward := ih (Eq.trans shows body)
    rwa [← same]
  | case2 s t front =>
    have shows := available_shows s
    rw [front] at shows
    have inside : t.phase = .body := Eq.trans shows body
    exact ⟨ahead_outside (by simp [inside]), available_retains body front⟩
  | case3 s t front =>
    have shows := available_shows s
    have same := format_available s
    rw [front] at shows same
    rw [← same]
    exact nextHeaders_holds shows (ahead_of_scanned (scanned_of_opens front))
  | case4 s t front =>
    have shows := available_shows s
    rw [front] at shows
    exact nextClosed_holds s.format shows
  | case5 s failure t front =>
    have shows := available_shows s
    rw [front] at shows
    exact ahead_outside (by simp [show t.phase = .failed failure.replay from shows])

/-! ## Any operation -/

/-- What a step leaves in the buffer. -/
theorem next_holds (ahead : s.HeadersAhead) : Holds s.format s.next := by
  unfold next
  cases here : s.phase with
  | start => exact nextStart_holds here
  | preamble held => exact nextPreamble_holds held
  | headers => exact nextHeaders_holds here ahead
  | body => exact nextBody_holds here
  | closed => exact nextClosed_holds s.format here
  | epilogue held => exact nextEpilogue_holds s.format held
  | done | failed cause => exact ahead

/-- What reading content leaves in the buffer. -/
theorem readBody_holds (ahead : s.HeadersAhead) (room : Nat) :
    ReadHolds s.format (s.readBody room) := by
  unfold readBody
  cases body : s.phase with
  | body =>
    have shows := available_shows s
    rcases front : s.available with ⟨failure | _ | n | _ | _, t⟩ <;> rw [front] at shows
    · exact ahead_outside (by simp [show t.phase = .failed failure.replay from shows])
    · have inside : t.phase = .body := Eq.trans shows body
      exact ⟨ahead_outside (by simp [inside]), available_retains body front⟩
    · have inside : t.phase = .body := Eq.trans shows body
      exact ahead_outside (by simp [inside])
    · exact ahead_of_scanned (scanned_of_opens front)
    · exact ahead_outside (by simp [show t.phase = .closed from shows])
  | start | preamble held | headers | closed | epilogue held | done | failed cause => exact ahead

theorem format_perform (s : Scanner) (operation : Operation) :
    (s.perform operation).2.format = s.format := by
  cases operation with
  | feed chunk =>
    simp only [perform, feed]
    split <;> rfl
  | finish | abort failure => rfl
  | next => exact format_next s
  | read room => exact format_readBody s room

/-- One operation keeps what is remembered of headers, and if it asks for input, no more is held back
than may be. -/
theorem holds_perform (ahead : s.HeadersAhead) (operation : Operation) :
    (s.perform operation).2.HeadersAhead ∧ ((s.perform operation).1.isHungry = true →
      s.format.Retains (s.perform operation).2.phase (s.perform operation).2.buffer.bytes) := by
  cases operation with
  | feed chunk =>
    refine ⟨fun here rest => ?_, by simp [perform, Reply.isHungry]⟩
    simp only [perform, feed] at here ⊢
    split at here
    · rename_i ended
      rw [if_pos ended]
      exact ahead here rest
    · rename_i more
      rw [if_neg more]
      exact (ahead here (chunk ++ rest)).extend
  | finish => exact ⟨ahead, by simp [perform, Reply.isHungry]⟩
  | abort failure => exact ⟨ahead_outside (by simp [perform, abort]), by simp [perform, Reply.isHungry]⟩
  | next =>
    have holds := next_holds ahead
    simp only [perform]
    rcases step : s.next with ⟨_ | _ | _ | _ | _ | _, t⟩ <;> rw [step] at holds
    case ok.needInput => exact ⟨holds.1, fun _ => holds.2⟩
    all_goals exact ⟨holds, by simp [Reply.isHungry]⟩
  | read room =>
    have holds := readBody_holds ahead room
    simp only [perform]
    rcases read : s.readBody room with ⟨_ | _ | _ | _, t⟩ <;> rw [read] at holds
    case ok.needInput => exact ⟨holds.1, fun _ => holds.2⟩
    all_goals exact ⟨holds, by simp [Reply.isHungry]⟩

/-- So do any operations, and they change nothing of what is known of the body as a whole. -/
theorem ahead_after (ahead : s.HeadersAhead) (operations : List Operation) :
    (s.after operations).HeadersAhead ∧ (s.after operations).format = s.format := by
  induction operations generalizing s with
  | nil => exact ⟨ahead, rfl⟩
  | cons operation later ih =>
    obtain ⟨onward, same⟩ := ih (holds_perform ahead operation).1
    exact ⟨onward, same.trans (format_perform s operation)⟩

end RetentionLemmas

/-- Whatever was done with a scanner before, when it asks for input it holds back no more than it may:
in a section less than a delimiter, or one that is not decided about. -/
theorem retains_of_hungry (boundary : Boundary) (charset : Charset) (limits : Limits)
    (operations : List Operation) (operation : Operation)
    (hungry : (((new boundary charset limits).after operations).perform operation).1.isHungry = true) :
    Format.Retains ⟨boundary, charset, limits.headerLimit⟩
      (((new boundary charset limits).after operations).perform operation).2.phase
      (((new boundary charset limits).after operations).perform operation).2.buffer.bytes := by
  obtain ⟨ahead, same⟩ :=
    ahead_after (s := new boundary charset limits) (ahead_of_scanned rfl) operations
  have retains := (holds_perform ahead operation).2 hungry
  rwa [same] at retains

/-- A section whose content has been read up to a boundary with padding behind it. -/
def sampleReading : List Operation :=
  [.feed (Utf8.encode "--r\r\n\r\nabc"), .next, .next, .feed (Utf8.encode "\r\n--r \t\r"), .read 9]

theorem retains_of_hungry_sample :
    ∃ t : Scanner, t.phase = .body ∧ t.buffer.bytes = Utf8.encode "\r\n--r \t\r" ∧
      t.readBody 9 = (.ok .needInput, t) ∧
      Format.Retains ⟨⟨"r", by decide +kernel⟩, .utf8, 16384⟩ t.phase t.buffer.bytes := by
  have retains := retains_of_hungry ⟨"r", by decide +kernel⟩ .utf8 .default sampleReading (.read 9)
    (by decide +kernel)
  exact ⟨_, by decide +kernel, by decide +kernel, by decide +kernel, retains⟩

end Scanner

end HttpForms.Multipart
