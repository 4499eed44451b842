import HttpForms.Proofs.Scanner.Phases
import HttpForms.Proofs.Scanner.Search

/-!
# Portions of content

How much content is read at once is up to the room for it. A scanner that was read in two portions is
the same as one that was read in a single portion of their size, and a scanner that asks for input has
not changed at all. So the sizes of the portions decide nothing but where the content is cut.

Results:

1. `readBody_needInput` — to ask for input changes nothing, and does not depend on the room;
2. `readBody_split` — one portion is a smaller one and what is read behind it;
3. `searched_next`, `searched_readBody` — in a section a search never leaves the buffer, which is what
   makes portions of content non-empty.
-/

namespace HttpForms.Multipart

namespace SearchBuffer

variable {b b' : SearchBuffer} {needle : Bytes} {search : Search} {n : Nat}

/-- A search ends inside of the buffer if it began there. -/
theorem reached_le (result : b.find needle = (search, b')) (solid : needle ≠ [])
    (inside : b.scanned ≤ b.bytes.length) : search.reached ≤ b.bytes.length := by
  cases search with
  | found place =>
    have le := find_found_le result solid
    exact Nat.le_trans (Nat.le_add_right _ _) le
  | absent safe =>
    obtain ⟨-, rfl⟩ := find_absent result
    exact Nat.max_le.2 ⟨inside, Nat.sub_le _ _⟩

/-- A search that is repeated behind a part of what it has passed over comes to the same place. -/
theorem find_discard (result : b.find needle = (search, b')) (solid : needle ≠ [])
    (le : n ≤ search.reached) :
    ∃ again, (b'.discard n).find needle = (again, b'.discard n) ∧
      again.reached = search.reached - n := by
  have positive := List.length_pos_iff.2 solid
  cases search with
  | found place =>
    obtain ⟨rfl, -, here⟩ := find_found result
    have le : n ≤ place := le
    have front : (b.bytes.drop n).drop (place - n) = b.bytes.drop place := by
      rw [List.drop_drop, Nat.add_sub_cancel' le]
    have hit : Bytes.findFrom needle (place - n) (b.bytes.drop place) = some (place - n) := by
      rw [Bytes.findFrom_eq_map, Bytes.find?_eq_some_iff.2 ⟨⟨Nat.zero_le _, here⟩, nofun⟩]
      rfl
    refine ⟨.found (place - n), ?_, rfl⟩
    simp only [find, discard, front, hit]
  | absent safe =>
    obtain ⟨rfl, reached⟩ := find_absent result
    have le : n ≤ safe := le
    have short : (b.bytes.drop safe).length < needle.length := by
      rw [List.length_drop]
      omega
    have front : (b.bytes.drop n).drop (safe - n) = b.bytes.drop safe := by
      rw [List.drop_drop, Nat.add_sub_cancel' le]
    have miss : Bytes.findFrom needle (safe - n) (b.bytes.drop safe) = none :=
      Bytes.findFrom_of_short short
    have same : max (safe - n) ((b.bytes.drop n).length - (needle.length - 1)) = safe - n := by
      rw [List.length_drop]
      omega
    refine ⟨.absent (safe - n), ?_, rfl⟩
    simp only [find, discard, front, miss, same]

end SearchBuffer

namespace Scanner

section AvailableLemmas

variable {s t : Scanner} {n m : Nat}

/-- Content is what a search from some place of the buffer has passed over. -/
theorem exists_find_of_content (content : s.available = (.ok (.content n), t)) :
    ∃ (b : SearchBuffer) (search : Search), b.bytes = s.buffer.bytes ∧
      b.find s.boundary.delimiter = (search, t.buffer) ∧ search.reached = n ∧
      t = { s with buffer := t.buffer } ∧
      (s.buffer.scanned ≤ s.buffer.bytes.length → b.scanned ≤ b.bytes.length) := by
  unfold available at content
  rcases front : s.buffer.find s.boundary.delimiter with ⟨(_ | place) | (_ | safe), buffer⟩ <;>
    simp only [front] at content
  · have le := SearchBuffer.find_found_le front Boundary.delimiter_ne_nil
    have positive := Boundary.delimiter_pos s.boundary
    obtain ⟨rfl, -, -⟩ := SearchBuffer.find_found front
    rcases marker : Marker.classify (s.buffer.bytes.drop s.boundary.delimiter.length) with
      length | _ | _ | _ <;> simp only [marker] at content
    · cases content
    · cases content
    · exact absurd (await_ok content).1 nofun
    · rcases again : (SearchBuffer.reject ⟨s.buffer.bytes, 0⟩ 0).find s.boundary.delimiter with
        ⟨search, buffer⟩
      rw [again] at content
      cases content
      refine ⟨_, search, ?_, again, rfl, rfl, fun _ => ?_⟩
      · rfl
      · simp only [SearchBuffer.reject]
        omega
  · cases content
    exact ⟨s.buffer, .found (place + 1), rfl, front, rfl, rfl, id⟩
  · exact absurd (await_ok content).1 nofun
  · cases content
    exact ⟨s.buffer, .absent (safe + 1), rfl, front, rfl, rfl, id⟩

/-- What a search has passed over is content, if there is any. -/
theorem available_of_find {search : Search}
    (result : s.buffer.find s.boundary.delimiter = (search, s.buffer))
    (positive : 0 < search.reached) : s.available = (.ok (.content search.reached), s) := by
  unfold available
  rw [result]
  rcases search with (_ | place) | (_ | safe)
  · exact absurd positive (Nat.lt_irrefl 0)
  · rfl
  · exact absurd positive (Nat.lt_irrefl 0)
  · rfl

/-- Behind a part of the content the rest of it is content. -/
theorem available_discard (content : s.available = (.ok (.content n), t)) (lt : m < n) :
    ({ t with buffer := t.buffer.discard m } : Scanner).available =
      (.ok (.content (n - m)), { t with buffer := t.buffer.discard m }) := by
  obtain ⟨_, search, -, result, rfl, same, -⟩ := exists_find_of_content content
  obtain ⟨again, found, reached⟩ := SearchBuffer.find_discard result Boundary.delimiter_ne_nil
    (Nat.le_of_lt lt)
  have boundary : t.boundary = s.boundary := by rw [same]
  rw [← reached]
  refine available_of_find ?_ (by omega)
  rw [show ({ t with buffer := t.buffer.discard m } : Scanner).boundary = s.boundary from boundary]
  exact found

/-- To ask for input changes nothing, and leaves nothing that would not be searched again. -/
theorem available_needInput (waits : s.available = (.ok .needInput, t)) :
    t = s ∧ s.buffer.scanned = 0 := by
  have unmoved {search : Search} {buffer : SearchBuffer} (reached : search.reached = 0)
      (result : s.buffer.find s.boundary.delimiter = (search, buffer)) :
      buffer = s.buffer ∧ s.buffer.scanned = 0 := by
    obtain ⟨rfl, le⟩ := SearchBuffer.find_eq result
    rw [reached] at le ⊢
    have front := Nat.le_zero.1 le
    exact ⟨by rw [← front], front⟩
  unfold available at waits
  rcases front : s.buffer.find s.boundary.delimiter with ⟨(_ | place) | (_ | safe), buffer⟩ <;>
    simp only [front] at waits
  · obtain ⟨rfl, unsearched⟩ := unmoved rfl front
    rcases marker : Marker.classify (s.buffer.bytes.drop s.boundary.delimiter.length) with
      length | _ | _ | _ <;> simp only [marker] at waits
    · cases waits
    · cases waits
    · exact ⟨(await_ok waits).2.1, unsearched⟩
    · cases waits
  · cases waits
  · obtain ⟨rfl, unsearched⟩ := unmoved rfl front
    exact ⟨(await_ok waits).2.1, unsearched⟩
  · cases waits

end AvailableLemmas

section ReadLemmas

variable {s t : Scanner} {room more : Nat} {bytes : Bytes}

/-- To ask for input changes nothing, and does not depend on the room. -/
theorem readBody_needInput (waits : s.readBody room = (.ok .needInput, t)) :
    t = s ∧ ∀ room, s.readBody room = (.ok .needInput, s) := by
  have moves := readBody_moves s room
  rw [waits] at moves
  simp only [readBody, moves.1] at waits ⊢
  rcases front : s.available with ⟨_ | _ | _ | _ | _, u⟩ <;> rw [front] at waits <;> cases waits
  obtain ⟨rfl, -⟩ := available_needInput front
  exact ⟨rfl, fun _ => rfl⟩

/-- In a section the search has not left the buffer. -/
def Searched (s : Scanner) : Prop :=
  s.phase = .body → s.buffer.scanned ≤ s.buffer.bytes.length

/-- Content that is given away was in the buffer. -/
theorem content_le (searched : s.Searched) (body : s.phase = .body) {n : Nat}
    (content : s.available = (.ok (.content n), t)) :
    0 < n ∧ n ≤ t.buffer.bytes.length ∧ t.buffer.scanned = n := by
  obtain ⟨positive, buffer, -⟩ := available_content content
  obtain ⟨b, search, bytes, result, rfl, -, inside⟩ := exists_find_of_content content
  have le := SearchBuffer.reached_le result Boundary.delimiter_ne_nil (inside (searched body))
  rw [buffer]
  rw [bytes] at le
  exact ⟨positive, le, rfl⟩

/-- What is read of content. -/
theorem readBody_content (body : s.phase = .body) {n : Nat}
    (front : s.available = (.ok (.content n), t)) (room : Nat) :
    s.readBody room = (.ok (.data (t.buffer.bytes.take (min n room))),
      { t with buffer := t.buffer.discard (min n room) }) := by
  simp only [readBody, body, front, SearchBuffer.deliver, SearchBuffer.split]

/-- What is read of a section is content. -/
theorem content_of_readBody (read : s.readBody room = (.ok (.data bytes), t)) :
    s.phase = .body ∧ ∃ n u, s.available = (.ok (.content n), u) ∧
      bytes = u.buffer.bytes.take (min n room) ∧
      t = { u with buffer := u.buffer.discard (min n room) } := by
  have moves := readBody_moves s room
  rw [read] at moves
  obtain ⟨body, -⟩ := moves
  refine ⟨body, ?_⟩
  rcases front : s.available with ⟨_ | _ | n | _ | _, u⟩
  case ok.content =>
    rw [readBody_content body front] at read
    cases read
    exact ⟨n, u, rfl, rfl, rfl⟩
  all_goals
    simp only [readBody, body, front] at read
    cases read

/-- Whoever has room for content gets some. -/
theorem readBody_ne_nil (searched : s.Searched) (space : 0 < room)
    (read : s.readBody room = (.ok (.data bytes), t)) : bytes ≠ [] := by
  obtain ⟨body, n, u, front, rfl, -⟩ := content_of_readBody read
  obtain ⟨positive, le, -⟩ := content_le searched body front
  refine List.length_pos_iff.1 ?_
  rw [List.length_take]
  omega

/-- What is read with more room is what is read with less, or that and what can be read behind it. -/
theorem readBody_split (s : Scanner) (le : room ≤ more) :
    s.readBody more = s.readBody room ∨
      ∃ bytes rest t u, s.readBody room = (.ok (.data bytes), t) ∧
        s.readBody more = (.ok (.data (bytes ++ rest)), u) ∧ room < more ∧
        t.readBody (more - room) = (.ok (.data rest), u) := by
  cases here : s.phase with
  | body =>
    rcases front : s.available with ⟨_ | _ | n | _ | _, t⟩
    case ok.content =>
      have shows := available_shows s
      rw [front] at shows
      have body : t.phase = .body := Eq.trans shows here
      rw [readBody_content here front, readBody_content here front]
      rcases Nat.lt_or_ge room (min n more) with lt | ge
      -- The smaller portion ends inside of the larger one, and the rest can be read behind it.
      · have less : room < n := Nat.lt_of_lt_of_le lt (Nat.min_le_left _ _)
        have all : min n room = room := Nat.min_eq_right (Nat.le_of_lt less)
        have both : room + min (n - room) (more - room) = min n more := by omega
        have behind := readBody_content
          (s := { t with buffer := t.buffer.discard room }) body (available_discard front less)
          (more - room)
        rw [all]
        refine .inr ⟨_, (t.buffer.bytes.drop room).take (min (n - room) (more - room)), _,
          { t with buffer := t.buffer.discard (min n more) }, rfl, ?_, by omega, ?_⟩
        · rw [← List.take_add, both]
        · rw [behind]
          simp only [SearchBuffer.discard, List.drop_drop, both, Nat.sub_sub]
      · have same : min n more = min n room := by omega
        exact .inl (by rw [same])
    all_goals exact .inl (by simp only [readBody, here, front])
  | start | preamble held | headers | closed | epilogue held | done | failed cause =>
    exact .inl (by simp only [readBody, here])

/-! ## Searched scanners -/

theorem searched_of_scanned (front : s.buffer.scanned = 0) : s.Searched := by
  intro _
  rw [front]
  exact Nat.zero_le _

theorem searched_await {α : Type} {ask : α} {failure : Failure} (outside : s.phase ≠ .body) :
    (s.await ask failure).2.Searched := by
  unfold await
  split
  · exact nofun
  · exact fun body => absurd body outside

theorem searched_nextHeaders (here : s.phase = .headers) : s.nextHeaders.2.Searched := by
  have outside : s.phase ≠ .body := by
    rw [here]
    exact nofun
  unfold nextHeaders
  split
  · exact searched_of_scanned rfl
  split
  · exact searched_await outside
  split
  · split
    · exact nofun
    · exact searched_of_scanned rfl
  · split
    · exact nofun
    · exact searched_await outside

theorem searched_nextEpilogue (held : Bytes) : (s.nextEpilogue held).2.Searched := by
  unfold nextEpilogue
  simp only
  split
  · exact nofun
  · exact nofun

theorem searched_nextClosed (here : s.phase = .closed) : s.nextClosed.2.Searched := by
  unfold nextClosed
  split
  · rw [Searched, here]
    exact nofun
  · exact searched_nextEpilogue []

theorem searched_nextBody (body : s.phase = .body) : s.nextBody.2.Searched := by
  fun_induction nextBody s with
  | case1 s n t front ih =>
    have shows := available_shows s
    rw [front] at shows
    exact ih (Eq.trans shows body)
  | case2 s t front =>
    obtain ⟨rfl, unsearched⟩ := available_needInput front
    exact searched_of_scanned unsearched
  | case3 s t front =>
    have shows := available_shows s
    rw [front] at shows
    exact searched_nextHeaders shows
  | case4 s t front =>
    have shows := available_shows s
    rw [front] at shows
    exact searched_nextClosed shows
  | case5 s failure t front =>
    have shows := available_shows s
    rw [front] at shows
    rw [Searched, show t.phase = .failed failure.replay from shows]
    exact Phase.noConfusion

/-- Before the first boundary line no step leads into a section. -/
theorem searched_of_before (here : s.phase.region = .before) : s.next.2.Searched := by
  have moves := next_moves s
  rw [here] at moves
  intro body
  rcases step : s.next with ⟨_ | _ | _ | _ | _ | _, t⟩ <;> rw [step] at moves body
  · exact absurd (Eq.trans (Eq.symm body) moves) nofun
  · rcases moves with moves | ⟨inside, -⟩
    · rw [body] at moves
      exact Region.noConfusion moves
    · exact Region.noConfusion inside
  · have between := moves.2
    rw [body] at between
    exact Region.noConfusion between
  · rcases moves.1 with between | inside <;> contradiction
  · rcases moves.1 with between | inside <;> contradiction
  · rcases moves.1 with done | failed <;> contradiction

/-- In a section a search has never left the buffer when a step is done. -/
theorem searched_next (s : Scanner) : s.next.2.Searched := by
  cases here : s.phase with
  | start | preamble held => exact searched_of_before (by rw [here]; rfl)
  | headers =>
    rw [next, here]
    exact searched_nextHeaders here
  | body =>
    rw [next, here]
    exact searched_nextBody here
  | closed =>
    rw [next, here]
    exact searched_nextClosed here
  | epilogue held =>
    rw [next, here]
    exact searched_nextEpilogue held
  | done | failed cause =>
    rw [next, here, Searched, here]
    exact nofun

/-- Nor does reading lead it out. -/
theorem Searched.readBody (searched : s.Searched) (room : Nat) : (s.readBody room).2.Searched := by
  have moves := readBody_moves s room
  rcases read : s.readBody room with ⟨failure | _ | bytes | _, t⟩ <;> rw [read] at moves
  · rcases moves with ⟨-, failed⟩ | ⟨cause, failed, -, rfl⟩
    · rw [Searched, show t.phase = .failed failure.replay from failed]
      exact nofun
    · exact searched
  · obtain ⟨rfl, -⟩ := readBody_needInput read
    exact searched
  · obtain ⟨body, n, u, front, -, rfl⟩ := content_of_readBody read
    obtain ⟨-, le, scanned⟩ := content_le searched body front
    intro _
    simp only [SearchBuffer.discard, List.length_drop, scanned]
    omega
  · rcases moves with ⟨-, between⟩ | ⟨-, -, rfl⟩
    · intro body
      rw [show t.phase = .body from body] at between
      exact Region.noConfusion between
    · exact searched

theorem Searched.feed (searched : s.Searched) (chunk : Bytes) : (s.feed chunk).Searched := by
  unfold Scanner.feed
  split
  · exact searched
  · intro body
    have within := searched body
    simp only [SearchBuffer.extend, List.length_append]
    omega

end ReadLemmas

end Scanner

end HttpForms.Multipart
