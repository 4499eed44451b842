import HttpForms.Multipart.Scanner.Content

/-!
# What a scanner uses up

Whoever drives a scanner asks it again and again until it is done. That ends because every answer
uses something up: a scanner asks for input only while its input has not ended, content that is given
away leaves the buffer, and a step of the body takes octets or is the last one.

Results:

1. `readBody_reads` — what is read was in the buffer;
2. `next_advances` — every step uses something up.

Both say as well that only a scanner whose input has not ended asks for more.
-/

namespace HttpForms.Multipart

/-- Whether a step can still come of the phase. -/
def Phase.isLive : Phase → Bool
  | .done | .failed _ => false
  | _ => true

namespace Scanner

/-- What can still be used up: the octets that wait, and the last step. -/
def weight (s : Scanner) : Nat :=
  s.buffer.bytes.length + if s.phase.isLive then 1 else 0

/-- What an answer may do to a scanner. -/
def Advances (s : Scanner) : Except Failure Step × Scanner → Prop
  | (.ok .needInput, t) =>
    s.ended = false ∧ t.ended = false ∧ t.phase.isLive = true ∧ t.weight ≤ s.weight
  | (.ok (.opened _), t) => t.ended = s.ended ∧ t.weight < s.weight ∧ t.phase.isLive = true
  | (.ok .done, t) => s.phase.isLive = false ∧ t = s
  | (_, t) => t.ended = s.ended ∧ t.weight < s.weight

/-- What reading may do to a scanner. -/
def Reads (s : Scanner) : Except Failure Portion × Scanner → Prop
  | (.ok .needInput, t) =>
    s.ended = false ∧ t.ended = false ∧ t.buffer.bytes.length ≤ s.buffer.bytes.length
  | (.ok portion, t) =>
    t.ended = s.ended ∧ portion.bytes.length + t.buffer.bytes.length ≤ s.buffer.bytes.length
  | (.error _, t) => t.ended = s.ended ∧ t.buffer.bytes.length ≤ s.buffer.bytes.length

section ProgressLemmas

variable {s t : Scanner} {failure : Failure}

private theorem weight_le (live : s.phase.isLive = true)
    (le : t.buffer.bytes.length ≤ s.buffer.bytes.length) : t.weight ≤ s.weight := by
  simp only [weight, live, if_true]
  split <;> omega

private theorem weight_lt (live : s.phase.isLive = true)
    (lt : t.buffer.bytes.length < s.buffer.bytes.length) : t.weight < s.weight := by
  simp only [weight, live, if_true]
  split <;> omega

private theorem weight_dead (live : s.phase.isLive = true) (dead : t.phase.isLive = false)
    (le : t.buffer.bytes.length ≤ s.buffer.bytes.length) : t.weight < s.weight := by
  simp only [weight, live, dead, if_true, Bool.false_eq_true, if_false]
  omega

private theorem advances_fail (live : s.phase.isLive = true) (ended : t.ended = s.ended)
    (le : t.buffer.bytes.length ≤ s.buffer.bytes.length) : Advances s (t.fail failure) :=
  ⟨ended, weight_dead live rfl le⟩

/-- Asking for more, or failing for want of it, is an advance. -/
private theorem advances_await (live : s.phase.isLive = true) (ended : t.ended = s.ended)
    (le : t.buffer.bytes.length ≤ s.buffer.bytes.length) (stays : t.phase.isLive = true) :
    Advances s (t.await .needInput failure) := by
  unfold await
  split
  · exact advances_fail live ended le
  · rename_i more
    have open_ : t.ended = false := by simpa using more
    exact ⟨ended ▸ open_, open_, stays, weight_le live le⟩

/-- An advance of a later scanner is one of an earlier scanner. -/
private theorem Advances.mono {result : Except Failure Step × Scanner}
    (advances : Advances t result) (live : t.phase.isLive = true) (ended : t.ended = s.ended)
    (le : t.weight ≤ s.weight) : Advances s result := by
  match result, advances with
  | (.ok .needInput, u), h => exact ⟨ended ▸ h.1, h.2.1, h.2.2.1, Nat.le_trans h.2.2.2 le⟩
  | (.ok .done, u), h => exact absurd h.1 (by simp [live])
  | (.ok (.preamble _), u), h => exact ⟨h.1.trans ended, Nat.lt_of_lt_of_le h.2 le⟩
  | (.ok (.opened _), u), h =>
    exact ⟨h.1.trans ended, Nat.lt_of_lt_of_le h.2.1 le, h.2.2⟩
  | (.ok (.epilogue _), u), h => exact ⟨h.1.trans ended, Nat.lt_of_lt_of_le h.2 le⟩
  | (.error _, u), h => exact ⟨h.1.trans ended, Nat.lt_of_lt_of_le h.2 le⟩

private theorem length_enter {phase : Phase} (n : Nat) :
    (s.enter phase n).buffer.bytes.length = s.buffer.bytes.length - n := by
  simp [enter, SearchBuffer.restart, SearchBuffer.discard]

private theorem two_le_of_crlf {bytes : Bytes} (front : Bytes.crlf.isPrefixOf bytes = true) :
    2 ≤ bytes.length := by
  simpa [Bytes.crlf] using (List.isPrefixOf_iff_prefix.1 front).length_le

private theorem delimiter_pos (b : Boundary) : 0 < b.delimiter.length := by
  simp [Boundary.delimiter]

theorem nextHeaders_advances (live : s.phase.isLive = true) : Advances s s.nextHeaders := by
  unfold nextHeaders
  split
  · rename_i front
    have := two_le_of_crlf front
    exact ⟨rfl, weight_lt live (by rw [length_enter]; simp only [Bytes.crlf, List.length_cons]; omega),
      rfl⟩
  · split
    · exact advances_await live rfl (Nat.le_refl _) live
    · split
      · rename_i place buffer found
        have le := SearchBuffer.find_found_le found (by simp [headerEnd, Bytes.crlf])
        have positive : 0 < headerEnd.length := by decide
        obtain ⟨rfl, -, -⟩ := SearchBuffer.find_found found
        split
        · exact advances_fail live rfl (Nat.le_refl _)
        · exact ⟨rfl, weight_lt live (by rw [length_enter]; simp only; omega), rfl⟩
      · rename_i safe buffer absent
        obtain ⟨rfl, -⟩ := SearchBuffer.find_absent absent
        split
        · exact advances_fail live rfl (Nat.le_refl _)
        · exact advances_await live rfl (Nat.le_refl _) live

theorem nextEpilogue_advances {held : Bytes} (live : s.phase.isLive = true) :
    Advances s (s.nextEpilogue held) := by
  unfold nextEpilogue
  simp only [SearchBuffer.split]
  split
  · exact ⟨rfl, weight_dead live rfl (by rw [length_enter]; simp [SearchBuffer.length_discard])⟩
  · rename_i more
    have ended : s.ended = false := by simpa using more
    exact ⟨ended, ended, rfl, weight_le live (by simp [SearchBuffer.length_discard])⟩

theorem nextClosed_advances (live : s.phase.isLive = true) : Advances s s.nextClosed := by
  unfold nextClosed
  split
  · rename_i short
    have ended : s.ended = false := by simp_all
    exact ⟨ended, ended, live, Nat.le_refl _⟩
  · exact (nextEpilogue_advances rfl).mono rfl rfl (weight_le live (by rw [length_enter]; omega))

/-- Looking for a boundary line leaves the buffer as it is, and what it finds lies inside. -/
theorem seekLine_spec (boundary : Boundary) (b : SearchBuffer) :
    (seekLine boundary b).2.bytes = b.bytes ∧
      match (seekLine boundary b).1 with
      | .opens place length | .closes place length =>
        place < b.bytes.length ∧ 0 < length
      | _ => True := by
  have positive := delimiter_pos boundary
  fun_induction seekLine boundary b with
  | case1 b safe b' search =>
    obtain ⟨rfl, -⟩ := SearchBuffer.find_absent search
    exact ⟨rfl, trivial⟩
  | case2 b place b' search _ ih =>
    obtain ⟨rfl, -, -⟩ := SearchBuffer.find_found search
    exact ih
  | case3 b place b' search _ =>
    obtain ⟨rfl, -, -⟩ := SearchBuffer.find_found search
    exact ⟨rfl, trivial⟩
  | case4 b place b' search length _ =>
    have le := SearchBuffer.find_found_le search (by simp [Boundary.delimiter])
    obtain ⟨rfl, -, -⟩ := SearchBuffer.find_found search
    exact ⟨rfl, by omega, by omega⟩
  | case5 b place b' search _ =>
    have le := SearchBuffer.find_found_le search (by simp [Boundary.delimiter])
    obtain ⟨rfl, -, -⟩ := SearchBuffer.find_found search
    exact ⟨rfl, by omega, by omega⟩

theorem nextPreamble_advances {held : Bytes} (live : s.phase.isLive = true) :
    Advances s (s.nextPreamble held) := by
  have spec := seekLine_spec s.boundary s.buffer
  unfold nextPreamble
  split <;> (rename_i buffer found; rw [found] at spec; obtain ⟨bytes, inside⟩ := spec
             change buffer.bytes = s.buffer.bytes at bytes)
  · exact advances_await live rfl (by simp [SearchBuffer.discard, bytes]) rfl
  · exact advances_await live rfl (by simp [bytes]) rfl
  · exact ⟨rfl, weight_lt live (by rw [length_enter]; simp only [bytes] at inside ⊢; omega)⟩
  · exact ⟨rfl, weight_lt live (by rw [length_enter]; simp only [bytes] at inside ⊢; omega)⟩

theorem nextStart_advances (live : s.phase.isLive = true) : Advances s s.nextStart := by
  have toPreamble : Advances s ((s.enter (.preamble []) 0).nextPreamble []) :=
    (nextPreamble_advances rfl).mono rfl rfl (weight_le live (by rw [length_enter]; omega))
  have width : 0 < s.boundary.dashed.length := by simp [Boundary.dashed]
  unfold nextStart
  split
  · rename_i short
    have ended : s.ended = false := by simp_all
    exact ⟨ended, ended, live, Nat.le_refl _⟩
  · split
    · exact toPreamble
    · rename_i front
      have le : s.boundary.dashed.length ≤ s.buffer.bytes.length :=
        (List.isPrefixOf_iff_prefix.1 (by simpa using front)).length_le
      split
      · exact ⟨rfl, weight_lt live (by rw [length_enter]; omega)⟩
      · exact ⟨rfl, weight_lt live (by rw [length_enter]; omega)⟩
      · exact advances_await live rfl (Nat.le_refl _) live
      · exact toPreamble

/-- What looking at the front of the buffer may do to a scanner: take away a boundary line, fail, or
search on. -/
def Looks (s : Scanner) : Except Failure Front × Scanner → Prop
  | (.ok .needInput, t) =>
    s.ended = false ∧ t = { s with buffer := t.buffer } ∧ t.buffer.bytes = s.buffer.bytes
  | (.ok (.content _), t) => t = { s with buffer := t.buffer } ∧ t.buffer.bytes = s.buffer.bytes
  | (.ok .opens, t) | (.ok .closes, t) =>
    t.phase.isLive = true ∧ t.ended = s.ended ∧ t.buffer.bytes.length < s.buffer.bytes.length
  | (.error _, t) => t.ended = s.ended ∧ t.weight < s.weight ∧ t.buffer.bytes = s.buffer.bytes

private theorem looks_await {buffer : SearchBuffer} (live : s.phase.isLive = true)
    (bytes : buffer.bytes = s.buffer.bytes) :
    Looks s ({ s with buffer := buffer }.await .needInput failure) := by
  unfold await
  split
  · exact ⟨rfl, weight_dead live rfl (by simp [bytes]), bytes⟩
  · rename_i more
    exact ⟨by simpa using more, rfl, bytes⟩

theorem available_looks (live : s.phase.isLive = true) : Looks s s.available := by
  have positive := delimiter_pos s.boundary
  unfold available
  rcases front : s.buffer.find s.boundary.delimiter with ⟨search, buffer⟩
  have bytes : buffer.bytes = s.buffer.bytes := by rw [(SearchBuffer.find_eq front).1]
  rcases search with (_ | place) | (_ | safe)
  · have le := SearchBuffer.find_found_le front (by simp [Boundary.delimiter])
    rcases marker : Marker.classify (buffer.bytes.drop s.boundary.delimiter.length) with
      length | _ | _ | _ <;> simp only [marker]
    · exact ⟨rfl, rfl, by rw [length_enter]; simp only [bytes]; omega⟩
    · exact ⟨rfl, rfl, by rw [length_enter]; simp only [bytes]; omega⟩
    · exact looks_await live bytes
    · rcases again : (buffer.reject 0).find s.boundary.delimiter with ⟨search, buffer'⟩
      exact ⟨rfl, by rw [(SearchBuffer.find_eq again).1]; exact bytes⟩
  · exact ⟨rfl, bytes⟩
  · exact looks_await live bytes
  · exact ⟨rfl, bytes⟩

theorem nextBody_advances (live : s.phase.isLive = true) : Advances s s.nextBody := by
  fun_induction nextBody s with
  | case1 s n t front ih =>
    have looks := available_looks live
    rw [front] at looks
    obtain ⟨same, bytes⟩ := looks
    rw [same] at ih ⊢
    exact (ih live).mono live rfl (weight_le live (by simp [SearchBuffer.discard, bytes]))
  | case2 s t front =>
    have looks := available_looks live
    rw [front] at looks
    obtain ⟨ended, same, bytes⟩ := looks
    exact ⟨ended, (congrArg Scanner.ended same).trans ended,
      (congrArg (fun s => s.phase.isLive) same).trans live,
      weight_le live (Nat.le_of_eq (by rw [bytes]))⟩
  | case3 s t front =>
    have looks := available_looks live
    rw [front] at looks
    exact (nextHeaders_advances looks.1).mono looks.1 looks.2.1
      (weight_le live (Nat.le_of_lt looks.2.2))
  | case4 s t front =>
    have looks := available_looks live
    rw [front] at looks
    exact (nextClosed_advances looks.1).mono looks.1 looks.2.1
      (weight_le live (Nat.le_of_lt looks.2.2))
  | case5 s failure t front =>
    have looks := available_looks live
    rw [front] at looks
    exact ⟨looks.1, looks.2.1⟩

/-- A step uses something up, unless it asks for input that can still come or all is done. -/
theorem next_advances (s : Scanner) : Advances s s.next := by
  unfold next
  split <;> rename_i phase
  · exact nextStart_advances (by rw [phase]; rfl)
  · exact nextPreamble_advances (by rw [phase]; rfl)
  · exact nextHeaders_advances (by rw [phase]; rfl)
  · exact nextBody_advances (by rw [phase]; rfl)
  · exact nextClosed_advances (by rw [phase]; rfl)
  · exact nextEpilogue_advances (by rw [phase]; rfl)
  · exact ⟨by rw [phase]; rfl, rfl⟩
  · exact ⟨by rw [phase]; rfl, rfl⟩

/-- Behind the end or a failure there is no step. -/
theorem next_of_dead (dead : s.phase.isLive = false) : s.next = (.ok .done, s) := by
  unfold next
  split <;> simp_all [Phase.isLive]

/-- What is read was in the buffer, and only a scanner whose input has not ended asks for more. -/
theorem readBody_reads (s : Scanner) (room : Nat) : Reads s (s.readBody room) := by
  unfold readBody
  split
  · exact ⟨rfl, Nat.le_refl _⟩
  · rename_i body
    have live : s.phase.isLive = true := by rw [body]; rfl
    have looks := available_looks live
    split <;> (rename_i front; rw [front] at looks)
    · rename_i n t
      have length := SearchBuffer.length_deliver (b := t.buffer) n room
      rw [looks.2] at length
      rw [looks.1]
      refine ⟨rfl, ?_⟩
      simp only [Portion.bytes, SearchBuffer.deliver, SearchBuffer.split] at length ⊢
      omega
    · exact ⟨looks.1, by rw [looks.2.1]; exact looks.1, Nat.le_of_eq (by rw [looks.2.2])⟩
    · exact ⟨looks.2.1, by simpa [Portion.bytes] using Nat.le_of_lt looks.2.2⟩
    · exact ⟨looks.2.1, by simpa [Portion.bytes] using Nat.le_of_lt looks.2.2⟩
    · exact ⟨looks.1, Nat.le_of_eq (by rw [looks.2.2])⟩
  · exact ⟨rfl, by simp [Portion.bytes]⟩

end ProgressLemmas

end Scanner

end HttpForms.Multipart
