import HttpForms.Proofs.Scanner.Phases

/-!
# The loops of a scanner, turn by turn

Asked for a step, a scanner goes round in loops: from phase to phase, past places that only look like
a boundary line, and past the content of a section that nobody read. Here one turn of these loops is a
function of its own, and it is counted how many turns there are before the answer. Reading content
goes round at most once.

Results:

1. `turns_next` — the turns lead to the answer of `next`, and their number is bounded by the buffer;
2. `turns_readBody` — the same of `readBody`, in two turns.
-/

namespace HttpForms.Multipart

/-- What one turn of a loop leads to. -/
inductive Turn (α : Type)
  /-- Another turn. -/
  | again (s : Scanner)
  | answer (result : Except Failure α × Scanner)

namespace Scanner

/-! ## Turns -/

/-- Looks at the front of the buffer once. A place that only looks like a boundary line is passed
over, and then the front has to be looked at again. -/
def lookTurn (s : Scanner) : Turn Front :=
  match s.buffer.find s.boundary.delimiter with
  | (.found 0, buffer) =>
    match Marker.classify (buffer.bytes.drop s.boundary.delimiter.length) with
    | .opens length =>
      .answer (.ok .opens,
        { s with buffer := buffer }.enter .headers (s.boundary.delimiter.length + length))
    | .closes => .answer (.ok .closes, { s with buffer := buffer }.enter .closed
        (s.boundary.delimiter.length + Marker.closing.length))
    | .undecided => .answer ({ s with buffer := buffer }.await .needInput .unterminatedBody)
    | .absent => .again { s with buffer := buffer.reject 0 }
  | (.absent 0, buffer) => .answer ({ s with buffer := buffer }.await .needInput .unterminatedBody)
  | (search, buffer) => .answer (.ok (.content search.reached), { s with buffer := buffer })

/-- Looks whether the body opens with a boundary. -/
def startTurn (s : Scanner) : Turn Step :=
  if s.buffer.bytes.length < s.boundary.dashed.length && !s.ended then
    .answer (.ok .needInput, s)
  else if !s.boundary.dashed.isPrefixOf s.buffer.bytes then .again (s.enter (.preamble []) 0)
  else
    match Marker.classify (s.buffer.bytes.drop s.boundary.dashed.length) with
    | .opens length =>
      .answer (.ok (.preamble []), s.enter .headers (s.boundary.dashed.length + length))
    | .closes => .answer
        (.ok (.preamble []), s.enter .closed (s.boundary.dashed.length + Marker.closing.length))
    | .undecided => .answer (s.await .needInput .unterminatedPreamble)
    | .absent => .again (s.enter (.preamble []) 0)

/-- Looks at one place where the first boundary line may stand. -/
def preambleTurn (s : Scanner) (held : Bytes) : Turn Step :=
  match s.buffer.find s.boundary.delimiter with
  | (.absent safe, buffer) =>
    let (released, buffer) := buffer.split safe
    .answer ({ s with phase := .preamble (held ++ released), buffer := buffer }.await
      .needInput .unterminatedPreamble)
  | (.found place, buffer) =>
    match Marker.classify (buffer.bytes.drop (place + s.boundary.delimiter.length)) with
    | .absent => .again { s with buffer := buffer.reject place }
    | .undecided => .answer ({ s with phase := .preamble held, buffer := buffer }.await
        .needInput .unterminatedPreamble)
    | .opens length => .answer (.ok (.preamble (held ++ (buffer.split place).1)),
        { s with buffer := buffer }.enter .headers
          (place + (s.boundary.delimiter.length + length)))
    | .closes => .answer (.ok (.preamble (held ++ (buffer.split place).1)),
        { s with buffer := buffer }.enter .closed
          (place + (s.boundary.delimiter.length + Marker.closing.length)))

/-- Passes over content at the front of the buffer, or over the boundary line there. -/
def bodyTurn (s : Scanner) : Turn Step :=
  match s.lookTurn with
  | .again t | .answer (.ok .opens, t) | .answer (.ok .closes, t) => .again t
  | .answer (.ok (.content n), t) => .again { t with buffer := t.buffer.discard n }
  | .answer (.ok .needInput, t) => .answer (.ok .needInput, t)
  | .answer (.error failure, t) => .answer (.error failure, t)

/-- Takes away the break after the closing boundary, if there is one. -/
def closedTurn (s : Scanner) : Turn Step :=
  if s.buffer.bytes.length < Bytes.crlf.length && !s.ended then .answer (.ok .needInput, s)
  else
    .again (s.enter (.epilogue [])
      (if Bytes.crlf.isPrefixOf s.buffer.bytes then Bytes.crlf.length else 0))

/-- One turn on the way to the next step. -/
def turn (s : Scanner) : Turn Step :=
  match s.phase with
  | .start => s.startTurn
  | .preamble held => s.preambleTurn held
  | .headers => .answer s.nextHeaders
  | .body => s.bodyTurn
  | .closed => s.closedTurn
  | .epilogue held => .answer (s.nextEpilogue held)
  | .done | .failed _ => .answer (.ok .done, s)

/-- One turn on the way to the next content. -/
def readTurn (room : Nat) (s : Scanner) : Turn Portion :=
  match s.phase with
  | .failed cause => .answer (.error cause.replay, s)
  | .body =>
    match s.lookTurn with
    | .again t => .again t
    | .answer (.ok (.content n), t) => .answer
        (.ok (.data (t.buffer.deliver n room).1), { t with buffer := (t.buffer.deliver n room).2 })
    | .answer (.ok .needInput, t) => .answer (.ok .needInput, t)
    | .answer (.ok .opens, t) | .answer (.ok .closes, t) => .answer (.ok .finished, t)
    | .answer (.error failure, t) => .answer (.error failure, t)
  | _ => .answer (.ok .finished, s)

/-- Goes round at most so many times. There is no result without an answer by then. -/
def turns {α : Type} (turn : Scanner → Turn α) : Nat → Scanner → Option (Except Failure α × Scanner)
  | 0, _ => none
  | n + 1, s =>
    match turn s with
    | .again t => turns turn n t
    | .answer result => some result

/-! ## How often a scanner goes round -/

/-- How many more turns there may be on the way to the next step. -/
def patience (s : Scanner) : Nat :=
  match s.phase with
  | .start => s.buffer.bytes.length + 1
  | .preamble _ => s.buffer.bytes.length - s.buffer.scanned
  | .body =>
    s.buffer.bytes.length + (s.buffer.bytes.length - s.buffer.scanned) +
      min 1 (s.buffer.scanned - s.buffer.bytes.length)
  | .closed => 1
  | .headers | .epilogue _ | .done | .failed _ => 0

/-- What a turn may lead to: the answer that is due, or a scanner that owes the same answer in fewer
turns. -/
def Leads {α : Type} (due : Scanner → Except Failure α × Scanner) (rank : Scanner → Nat)
    (s : Scanner) : Turn α → Prop
  | .again t => due t = due s ∧ rank t < rank s
  | .answer result => result = due s

/-- How far a look at the front of the buffer reaches. -/
def Reaches (s : Scanner) : Except Failure Front × Scanner → Prop
  | (.ok (.content n), _) => s.buffer.scanned ≤ n
  | (.ok .opens, _) | (.ok .closes, _) => s.buffer.scanned = 0 ∧ 0 < s.buffer.bytes.length
  | (.ok .needInput, _) | (.error _, _) => True

section TurnLemmas

variable {s t : Scanner} {held : Bytes}

/-- Turns that lead on come to the answer that is due. -/
theorem turns_of_leads {α : Type} {turn : Scanner → Turn α}
    {due : Scanner → Except Failure α × Scanner} {rank : Scanner → Nat}
    (leads : ∀ s, Leads due rank s (turn s)) {n : Nat} (enough : rank s < n) :
    turns turn n s = some (due s) := by
  induction n generalizing s with
  | zero => exact absurd enough (Nat.not_lt_zero _)
  | succ n ih =>
    have step := leads s
    rw [turns]
    cases led : turn s with
    | again t =>
      rw [led] at step
      obtain ⟨same, less⟩ := step
      rw [← same]
      exact ih (Nat.lt_of_lt_of_le less (Nat.le_of_lt_succ enough))
    | answer result =>
      rw [led] at step
      exact congrArg some step

/-- A look that ends is the look at the front of the buffer. -/
theorem lookTurn_answer {result : Except Failure Front × Scanner}
    (ends : s.lookTurn = .answer result) : s.available = result := by
  unfold lookTurn at ends
  unfold available
  rcases front : s.buffer.find s.boundary.delimiter with ⟨(_ | place) | (_ | safe), buffer⟩ <;>
    simp only [front] at ends ⊢
  · rcases marker : Marker.classify (buffer.bytes.drop s.boundary.delimiter.length) with
      length | _ | _ | _ <;> simp only [marker] at ends ⊢
    · exact Turn.answer.inj ends
    · exact Turn.answer.inj ends
    · exact Turn.answer.inj ends
    · cases ends
  · exact Turn.answer.inj ends
  · exact Turn.answer.inj ends
  · exact Turn.answer.inj ends

theorem reaches_await {failure : Failure} : Reaches s (t.await .needInput failure) := by
  unfold await
  split <;> trivial

/-- An answered look reaches as far as its content does, and a boundary line stands at the front of
what no search had passed. -/
theorem lookTurn_reaches {result : Except Failure Front × Scanner}
    (ends : s.lookTurn = .answer result) : Reaches s result := by
  have solid : s.boundary.delimiter ≠ [] := by simp [Boundary.delimiter]
  have positive := List.length_pos_iff.2 solid
  unfold lookTurn at ends
  rcases front : s.buffer.find s.boundary.delimiter with ⟨(_ | place) | (_ | safe), buffer⟩ <;>
    simp only [front] at ends
  · have le := SearchBuffer.find_found_le front solid
    have scanned := Nat.le_zero.1 (SearchBuffer.find_eq front).2
    rcases marker : Marker.classify (buffer.bytes.drop s.boundary.delimiter.length) with
      length | _ | _ | _ <;> simp only [marker] at ends
    · cases ends
      exact ⟨scanned, by omega⟩
    · cases ends
      exact ⟨scanned, by omega⟩
    · cases ends
      exact reaches_await
    · cases ends
  · cases ends
    exact (SearchBuffer.find_eq front).2
  · cases ends
    exact reaches_await
  · cases ends
    exact (SearchBuffer.find_eq front).2

/-- A look that goes on has found what only looks like a delimiter, and is not taken in by that place
again. -/
theorem lookTurn_again (again : s.lookTurn = .again t) :
    0 < s.buffer.bytes.length ∧ s.buffer.scanned = 0 ∧ t.phase = s.phase ∧
      t.buffer = ⟨s.buffer.bytes, 1⟩ ∧ t.available = s.available := by
  have solid : s.boundary.delimiter ≠ [] := by simp [Boundary.delimiter]
  unfold lookTurn at again
  unfold available
  rcases front : s.buffer.find s.boundary.delimiter with ⟨(_ | place) | (_ | safe), buffer⟩ <;>
    simp only [front] at again ⊢
  · have le := SearchBuffer.find_found_le front solid
    have positive := List.length_pos_iff.2 solid
    obtain ⟨rfl, scanned, -⟩ := SearchBuffer.find_found front
    rcases marker : Marker.classify (s.buffer.bytes.drop s.boundary.delimiter.length) with
      length | _ | _ | _ <;> simp only [marker] at again ⊢ <;> cases again
    refine ⟨by omega, Nat.le_zero.1 scanned, rfl, rfl, ?_⟩
    rcases behind : (SearchBuffer.reject ⟨s.buffer.bytes, 0⟩ 0).find s.boundary.delimiter with
      ⟨(_ | place) | (_ | safe), buffer⟩ <;> simp only [Search.reached]
    · exact absurd (SearchBuffer.find_eq behind).2 (by simp [SearchBuffer.reject, Search.reached])
    · exact absurd (SearchBuffer.find_eq behind).2 (by simp [SearchBuffer.reject, Search.reached])
  · cases again
  · cases again
  · cases again

theorem startTurn_leads (here : s.phase = .start) : Leads next patience s s.startTurn := by
  have due : s.next = s.nextStart := by rw [next, here]
  have onward (same : s.nextStart = (s.enter (.preamble []) 0).nextPreamble []) :
      Leads next patience s (.again (s.enter (.preamble []) 0)) := by
    refine ⟨by rw [due, same]; rfl, ?_⟩
    rw [patience, patience, here]
    show (s.buffer.bytes.drop 0).length - 0 < s.buffer.bytes.length + 1
    simp
  unfold startTurn
  unfold nextStart at due onward
  split
  · rename_i short
    rw [if_pos short] at due
    exact due.symm
  · rename_i long
    rw [if_neg long] at due onward
    split
    · rename_i other
      rw [if_pos other] at onward
      exact onward rfl
    · rename_i front
      rw [if_neg front] at due onward
      split <;> rename_i marker <;> simp only [marker] at due onward
      · exact due.symm
      · exact due.symm
      · exact due.symm
      · exact onward trivial

/-- The search for the first boundary line looks at one place, and goes on behind it if there is no
line. -/
theorem seekLine_step (boundary : Boundary) (b : SearchBuffer) :
    seekLine boundary b =
      match b.find boundary.delimiter with
      | (.absent safe, b') => (.absent safe, b')
      | (.found place, b') =>
        match Marker.classify (b'.bytes.drop (place + boundary.delimiter.length)) with
        | .absent => seekLine boundary (b'.reject place)
        | .undecided => (.undecided place, b')
        | .opens length => (.opens place (boundary.delimiter.length + length), b')
        | .closes => (.closes place (boundary.delimiter.length + Marker.closing.length), b') := by
  rw [seekLine]
  split
  · simp_all
  · rename_i place b' found
    rcases marker : Marker.classify (b'.bytes.drop (place + boundary.delimiter.length)) with
      length | _ | _ | _ <;> simp only [found, marker]

theorem preambleTurn_leads (here : s.phase = .preamble held) :
    Leads next patience s (s.preambleTurn held) := by
  have due : s.next = s.nextPreamble held := by rw [next, here]
  have solid : s.boundary.delimiter ≠ [] := by simp [Boundary.delimiter]
  have positive := List.length_pos_iff.2 solid
  unfold preambleTurn
  rw [nextPreamble, seekLine_step] at due
  rcases front : s.buffer.find s.boundary.delimiter with ⟨place | safe, buffer⟩
  · have le := SearchBuffer.find_found_le front solid
    obtain ⟨rfl, scanned, -⟩ := SearchBuffer.find_found front
    rcases marker : Marker.classify
        (s.buffer.bytes.drop (place + s.boundary.delimiter.length)) with length | _ | _ | _ <;>
      simp only [front, marker] at due ⊢
    · exact due.symm
    · exact due.symm
    · exact due.symm
    · have later : Scanner.next { s with buffer := SearchBuffer.reject ⟨s.buffer.bytes, place⟩ place } =
          s.next := by
        rw [due, next, here]
        rfl
      refine ⟨later, ?_⟩
      simp only [patience, here, SearchBuffer.reject]
      omega
  · simp only [front] at due ⊢
    exact due.symm

/-- Passing over a section goes by what is at the front of the buffer. -/
theorem nextBody_step (s : Scanner) :
    s.nextBody =
      match s.available with
      | (.ok (.content n), t) => nextBody { t with buffer := t.buffer.discard n }
      | (.ok .needInput, t) => (.ok .needInput, t)
      | (.ok .opens, t) => t.nextHeaders
      | (.ok .closes, t) => t.nextClosed
      | (.error failure, t) => (.error failure, t) := by
  rw [nextBody]
  split <;> simp_all

theorem bodyTurn_leads (here : s.phase = .body) : Leads next patience s s.bodyTurn := by
  have due : s.next = s.nextBody := by rw [next, here]
  rw [nextBody_step] at due
  unfold bodyTurn
  cases looked : s.lookTurn with
  | again t =>
    obtain ⟨positive, scanned, phase, buffer, same⟩ := lookTurn_again looked
    have body : t.phase = .body := phase.trans here
    refine ⟨?_, ?_⟩
    · rw [due, next]
      simp only [body]
      rw [nextBody_step, same]
    · simp only [patience, here, body, buffer, scanned]
      omega
  | answer result =>
    have front := lookTurn_answer looked
    have reaches := lookTurn_reaches looked
    have shows := available_shows s
    rw [front] at due shows
    rcases result with ⟨_ | _ | n | _ | _, t⟩
    · exact due.symm
    · exact due.symm
    · obtain ⟨positive, buffer, unsearched⟩ := available_content front
      have body : t.phase = .body := Eq.trans shows here
      refine ⟨?_, ?_⟩
      · rw [due, next]
        simp only [body]
      · have none := fun none => unsearched (List.length_eq_zero_iff.1 none)
        have searched : s.buffer.scanned ≤ n := reaches
        simp only [patience, here, body, buffer, SearchBuffer.discard, List.length_drop]
        omega
    · have headers : t.phase = .headers := shows
      obtain ⟨scanned, positive⟩ := reaches
      refine ⟨?_, ?_⟩
      · rw [due, next]
        simp only [headers]
      · simp only [patience, here, headers]
        omega
    · have closed : t.phase = .closed := shows
      obtain ⟨scanned, positive⟩ := reaches
      refine ⟨?_, ?_⟩
      · rw [due, next]
        simp only [closed]
      · simp only [patience, here, closed, scanned]
        omega

theorem closedTurn_leads (here : s.phase = .closed) : Leads next patience s s.closedTurn := by
  have due : s.next = s.nextClosed := by rw [next, here]
  unfold closedTurn
  unfold nextClosed at due
  split
  · rename_i short
    rw [if_pos short] at due
    exact due.symm
  · rename_i long
    rw [if_neg long] at due
    refine ⟨due.symm, ?_⟩
    rw [patience, patience, here]
    exact Nat.zero_lt_one

/-- One turn leads towards the next step. -/
theorem turn_leads (s : Scanner) : Leads next patience s s.turn := by
  unfold turn
  cases here : s.phase with
  | start => exact startTurn_leads here
  | preamble held => exact preambleTurn_leads here
  | headers => exact (by rw [Leads, next, here])
  | body => exact bodyTurn_leads here
  | closed => exact closedTurn_leads here
  | epilogue held => exact (by rw [Leads, next, here])
  | done => exact (by rw [Leads, next, here])
  | failed cause => exact (by rw [Leads, next, here])

/-- One turn leads towards the next content. -/
theorem readTurn_leads (room : Nat) (s : Scanner) :
    Leads (·.readBody room) (fun s => 1 - s.buffer.scanned) s (s.readTurn room) := by
  unfold readTurn
  cases here : s.phase with
  | body =>
    cases looked : s.lookTurn with
    | again t =>
      obtain ⟨-, scanned, phase, buffer, same⟩ := lookTurn_again looked
      refine ⟨?_, ?_⟩
      · simp only [readBody, phase, here, same]
      · simp only [buffer, scanned]
        exact Nat.zero_lt_one
    | answer result =>
      have front := lookTurn_answer looked
      rcases result with ⟨_ | _ | n | _ | _, t⟩ <;> simp only [Leads, readBody, here, front]
  | failed cause => simp only [Leads, readBody, here]
  | start | preamble held | headers | closed | epilogue held | done =>
    simp only [Leads, readBody, here]

theorem patience_le (s : Scanner) : s.patience ≤ 2 * s.buffer.bytes.length + 1 := by
  unfold patience
  split <;> omega

/-- Asked for a step, a scanner goes round at most twice for every octet in its buffer, and twice
more. -/
theorem turns_next (s : Scanner) :
    turns turn (2 * s.buffer.bytes.length + 2) s = some s.next :=
  turns_of_leads turn_leads (Nat.lt_succ_of_le s.patience_le)

/-- Asked for content, a scanner goes round once more at most. -/
theorem turns_readBody (s : Scanner) (room : Nat) :
    turns (readTurn room) 2 s = some (s.readBody room) :=
  turns_of_leads (readTurn_leads room) (Nat.lt_succ_of_le (Nat.sub_le 1 _))

end TurnLemmas

end Scanner

end HttpForms.Multipart
