import HttpForms.Multipart.Scanner.Progress

/-!
# Where answers lead

Every answer of a scanner says where in the body it now is: before the first boundary line, inside a
section, elsewhere behind that line, at the end, or stopped. What a scanner may answer next depends on
this alone, whatever is in its buffer.

Results:

1. `next_moves` — where a step leads from and to;
2. `readBody_moves` — the same of reading content.
-/

namespace HttpForms.Multipart

/-- Where in a body a scanner is, as far as its answers tell. -/
inductive Region
  /-- Before the first boundary line. -/
  | before
  /-- Behind it, but not in a section. -/
  | between
  /-- In the content of a section. -/
  | inside
  /-- At the end. -/
  | done
  /-- Stopped by a failure. -/
  | failed
  deriving DecidableEq, Repr

/-- The region that a phase belongs to. -/
def Phase.region : Phase → Region
  | .start | .preamble _ => .before
  | .headers | .closed | .epilogue _ => .between
  | .body => .inside
  | .done => .done
  | .failed _ => .failed

namespace Scanner

/-- Where a step leads. -/
def Moves (region : Region) : Except Failure Step × Scanner → Prop
  | (.ok .needInput, t) => t.phase.region = region ∨ region = .inside ∧ t.phase.region = .between
  | (.ok (.preamble _), t) => region = .before ∧ t.phase.region = .between
  | (.ok (.opened _), t) => (region = .between ∨ region = .inside) ∧ t.phase = .body
  | (.ok (.epilogue _), t) => (region = .between ∨ region = .inside) ∧ t.phase = .done
  | (.ok .done, t) => (region = .done ∨ region = .failed) ∧ t.phase.region = region
  | (.error failure, t) => t.phase = .failed failure.replay

/-- Where looking at the front of the buffer leads. -/
def Shows (s : Scanner) : Except Failure Front × Scanner → Prop
  | (.ok .needInput, t) | (.ok (.content _), t) => t.phase = s.phase
  | (.ok .opens, t) => t.phase = .headers
  | (.ok .closes, t) => t.phase = .closed
  | (.error failure, t) => t.phase = .failed failure.replay

/-- Where reading content leads from and to. -/
def ReadMoves (s : Scanner) : Except Failure Portion × Scanner → Prop
  | (.ok .needInput, t) | (.ok (.data _), t) => s.phase = .body ∧ t.phase = .body
  | (.ok .finished, t) =>
    s.phase = .body ∧ t.phase.region = .between ∨
      s.phase.region ≠ .inside ∧ s.phase.region ≠ .failed ∧ t = s
  | (.error failure, t) =>
    s.phase = .body ∧ t.phase = .failed failure.replay ∨
      ∃ cause, s.phase = .failed cause ∧ failure = cause.replay ∧ t = s

section PhaseLemmas

variable {s t : Scanner} {region : Region} {failure : Failure}

/-- What leads on from behind the first boundary line leads on from inside a section as well. -/
theorem Moves.of_inside {result : Except Failure Step × Scanner}
    (moves : Moves .between result) : Moves .inside result := by
  match result, moves with
  | (.ok .needInput, t), moves =>
    rcases moves with same | ⟨inside, -⟩
    · exact .inr ⟨rfl, same⟩
    · exact Region.noConfusion inside
  | (.ok (.preamble _), t), moves => exact Region.noConfusion moves.1
  | (.ok (.opened _), t), moves => exact ⟨.inr rfl, moves.2⟩
  | (.ok (.epilogue _), t), moves => exact ⟨.inr rfl, moves.2⟩
  | (.ok .done, t), moves => rcases moves.1 with done | failed <;> contradiction
  | (.error failure, t), moves => exact moves

theorem moves_await (here : s.phase.region = region) : Moves region (s.await .needInput failure) := by
  unfold await
  split
  · rfl
  · exact .inl here

theorem nextHeaders_moves (here : s.phase.region = .between) : Moves .between s.nextHeaders := by
  unfold nextHeaders
  split
  · exact ⟨.inl rfl, rfl⟩
  split
  · exact moves_await here
  split
  · split
    · rfl
    · exact ⟨.inl rfl, rfl⟩
  · split
    · rfl
    · exact moves_await here

theorem nextEpilogue_moves (held : Bytes) : Moves .between (s.nextEpilogue held) := by
  unfold nextEpilogue
  simp only
  split
  · exact ⟨.inl rfl, rfl⟩
  · exact .inl rfl

theorem nextClosed_moves (here : s.phase.region = .between) : Moves .between s.nextClosed := by
  unfold nextClosed
  split
  · exact .inl here
  · exact nextEpilogue_moves []

theorem nextPreamble_moves (held : Bytes) : Moves .before (s.nextPreamble held) := by
  unfold nextPreamble
  split
  · exact moves_await rfl
  · exact moves_await rfl
  · exact ⟨rfl, rfl⟩
  · exact ⟨rfl, rfl⟩

theorem nextStart_moves (here : s.phase.region = .before) : Moves .before s.nextStart := by
  unfold nextStart
  split
  · exact .inl here
  split
  · exact nextPreamble_moves []
  split
  · exact ⟨rfl, rfl⟩
  · exact ⟨rfl, rfl⟩
  · exact moves_await here
  · exact nextPreamble_moves []

theorem shows_await : Shows s (s.await .needInput failure) := by
  unfold await
  split <;> rfl

theorem available_shows (s : Scanner) : Shows s s.available := by
  unfold available
  split
  · rename_i buffer _
    split
    · rfl
    · rfl
    · exact shows_await (s := { s with buffer := buffer })
    · rfl
  · rename_i buffer _
    exact shows_await (s := { s with buffer := buffer })
  · rfl

theorem nextBody_moves (body : s.phase = .body) : Moves .inside s.nextBody := by
  fun_induction nextBody s with
  | case1 s n t front ih =>
    have shown := available_shows s
    rw [front] at shown
    exact ih (shown.trans body)
  | case2 s t front =>
    have shown := available_shows s
    rw [front] at shown
    have same : t.phase = .body := shown.trans body
    exact .inl (by rw [same]; rfl)
  | case3 s t front =>
    have shown := available_shows s
    rw [front] at shown
    have headers : t.phase = .headers := shown
    exact (nextHeaders_moves (by rw [headers]; rfl)).of_inside
  | case4 s t front =>
    have shown := available_shows s
    rw [front] at shown
    have closed : t.phase = .closed := shown
    exact (nextClosed_moves (by rw [closed]; rfl)).of_inside
  | case5 s failure t front =>
    have shown := available_shows s
    rw [front] at shown
    exact shown

/-- Where a step leads from and to. -/
theorem next_moves (s : Scanner) : Moves s.phase.region s.next := by
  unfold next
  cases phase : s.phase with
  | start => exact nextStart_moves (by rw [phase]; rfl)
  | preamble held => exact nextPreamble_moves held
  | headers => exact nextHeaders_moves (by rw [phase]; rfl)
  | body => exact nextBody_moves phase
  | closed => exact nextClosed_moves (by rw [phase]; rfl)
  | epilogue held => exact nextEpilogue_moves held
  | done => exact ⟨.inl rfl, by rw [phase]⟩
  | failed cause => exact ⟨.inr rfl, by rw [phase]⟩

/-- Where reading content leads from and to. -/
theorem readBody_moves (s : Scanner) (room : Nat) : ReadMoves s (s.readBody room) := by
  unfold readBody
  cases phase : s.phase with
  | body =>
    have shown := available_shows s
    rcases front : s.available with ⟨_ | _ | _ | _ | _, t⟩ <;> rw [front] at shown
    · exact .inl ⟨phase, shown⟩
    · exact ⟨phase, shown.trans phase⟩
    · exact ⟨phase, shown.trans phase⟩
    · exact .inl ⟨phase, by rw [show t.phase = .headers from shown]; rfl⟩
    · exact .inl ⟨phase, by rw [show t.phase = .closed from shown]; rfl⟩
  | failed cause => exact .inr ⟨cause, phase, rfl, rfl⟩
  | start | preamble held | headers | closed | epilogue held | done =>
    exact .inr ⟨by rw [phase]; exact nofun, by rw [phase]; exact nofun, rfl⟩

end PhaseLemmas

end Scanner

end HttpForms.Multipart
