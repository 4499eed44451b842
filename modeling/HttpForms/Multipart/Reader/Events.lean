import HttpForms.Multipart.Reader.Fill

/-!
# Events

A body is a preamble, sections and an epilogue. A reader gives them one after the other and then none
any more; after a failure there are none either.

Result: `nextEvent_delivers` — every event uses something up, so there is a last one.
-/

namespace HttpForms.Multipart

/-- An event of a body. -/
inductive Event
  | preamble (bytes : Bytes)
  /-- A section begins; its content can be read until the next event is asked for. -/
  | opened (headers : Headers)
  | epilogue (bytes : Bytes)
  deriving DecidableEq, Repr

namespace Reader

variable {σ : Type} [ByteSource σ]

/-- The next event; none when the body is over. What is left of a section is passed over first. -/
def nextEvent (mode : Mode) (r : Reader σ) : Except Failure (Option Event) × Reader σ :=
  match _step : r.scanner.next with
  | (.ok (.preamble bytes), s) => (.ok (some (.preamble bytes)), { r with scanner := s })
  | (.ok (.opened headers), s) => (.ok (some (.opened headers)), { r with scanner := s })
  | (.ok (.epilogue bytes), s) => (.ok (some (.epilogue bytes)), { r with scanner := s })
  | (.ok .done, s) => (.ok none, { r with scanner := s })
  | (.error failure, s) => (.error failure, { r with scanner := s })
  | (.ok .needInput, s) =>
    match _filled : fill mode { r with scanner := s } with
    | (.ok (), t) => nextEvent mode t
    | (.error failure, t) => (.error failure, t)
termination_by r.backlog
decreasing_by
  have advances := Scanner.next_advances r.scanner
  rw [_step] at advances
  have fills := fill_progress mode { r with scanner := s }
  rw [_filled] at fills
  have less := fills.2.2 advances.2.1
  simp only [backlog, advances.1, advances.2.1] at less ⊢
  exact less

/-- What asking for an event may do to a reader. -/
def Delivers (r : Reader σ) : Except Failure (Option Event) × Reader σ → Prop
  | (.ok none, t) => t.size ≤ r.size ∧ t.remaining ≤ r.remaining
  | (.ok (some (.opened _)), t) => t.remaining + 1 < r.size ∧ t.remaining ≤ r.remaining
  | (_, t) => t.size < r.size ∧ t.remaining ≤ r.remaining

private theorem Delivers.mono {r t : Reader σ} {result : Except Failure (Option Event) × Reader σ}
    (delivers : Delivers t result) (size : t.size ≤ r.size) (remaining : t.remaining ≤ r.remaining) :
    Delivers r result := by
  match result, delivers with
  | (.ok none, u), h => exact ⟨Nat.le_trans h.1 size, Nat.le_trans h.2 remaining⟩
  | (.ok (some (.opened _)), u), h =>
    exact ⟨Nat.lt_of_lt_of_le h.1 size, Nat.le_trans h.2 remaining⟩
  | (.ok (some (.preamble _)), u), h =>
    exact ⟨Nat.lt_of_lt_of_le h.1 size, Nat.le_trans h.2 remaining⟩
  | (.ok (some (.epilogue _)), u), h =>
    exact ⟨Nat.lt_of_lt_of_le h.1 size, Nat.le_trans h.2 remaining⟩
  | (.error _, u), h => exact ⟨Nat.lt_of_lt_of_le h.1 size, Nat.le_trans h.2 remaining⟩

private theorem remaining_le_of_weight_lt {r : Reader σ} {s : Scanner}
    (lt : s.weight < r.scanner.weight) :
    ({ r with scanner := s } : Reader σ).remaining ≤ r.remaining := by
  simp only [remaining, Scanner.weight] at lt ⊢
  split at lt <;> split at lt <;> omega

private theorem bounds_of_live {r : Reader σ} {s : Scanner} (live : s.phase.isLive = true)
    (le : s.weight ≤ r.scanner.weight) :
    ({ r with scanner := s } : Reader σ).remaining < r.size ∧
      ({ r with scanner := s } : Reader σ).remaining ≤ r.remaining := by
  have : (if r.scanner.phase.isLive then 1 else 0) ≤ 1 := by split <;> omega
  simp only [remaining, size, Scanner.weight, live, if_true] at le ⊢
  omega

/-- Every event uses something up, and so does a failure. -/
theorem nextEvent_delivers (mode : Mode) (r : Reader σ) : Delivers r (r.nextEvent mode) := by
  fun_induction nextEvent mode r with
  | case1 r bytes s step =>
    have advances := Scanner.next_advances r.scanner
    rw [step] at advances
    exact ⟨Nat.add_lt_add_left advances.2 _, remaining_le_of_weight_lt advances.2⟩
  | case2 r headers s step =>
    have advances := Scanner.next_advances r.scanner
    rw [step] at advances
    refine ⟨?_, remaining_le_of_weight_lt advances.2.1⟩
    have lt := advances.2.1
    rw [Scanner.weight, advances.2.2] at lt
    simp only [if_true] at lt
    simp only [remaining, size]
    omega
  | case3 r bytes s step =>
    have advances := Scanner.next_advances r.scanner
    rw [step] at advances
    exact ⟨Nat.add_lt_add_left advances.2 _, remaining_le_of_weight_lt advances.2⟩
  | case4 r s step =>
    have advances := Scanner.next_advances r.scanner
    rw [step] at advances
    obtain ⟨-, rfl⟩ := advances
    exact ⟨Nat.le_refl _, Nat.le_refl _⟩
  | case5 r failure s step =>
    have advances := Scanner.next_advances r.scanner
    rw [step] at advances
    exact ⟨Nat.add_lt_add_left advances.2 _, remaining_le_of_weight_lt advances.2⟩
  | case6 r s step t filled ih =>
    have advances := Scanner.next_advances r.scanner
    rw [step] at advances
    have fills := fill_progress mode { r with scanner := s }
    rw [filled] at fills
    obtain ⟨-, -, live, weight⟩ := advances
    obtain ⟨phase, le, -⟩ := fills
    obtain ⟨lt, le'⟩ := bounds_of_live live weight
    have lt : t.remaining < r.size := Nat.lt_of_le_of_lt le lt
    have total := size_eq t
    rw [show t.scanner.phase = s.phase from phase, live] at total
    simp only [if_true] at total
    exact ih.mono (by omega) (Nat.le_trans le le')
  | case7 r s step failure t filled =>
    have advances := Scanner.next_advances r.scanner
    rw [step] at advances
    have fills := fill_progress mode { r with scanner := s }
    rw [filled] at fills
    obtain ⟨-, -, live, weight⟩ := advances
    obtain ⟨dead, le⟩ := fills
    obtain ⟨lt, le'⟩ := bounds_of_live live weight
    have lt : t.remaining < r.size := Nat.lt_of_le_of_lt le lt
    have total := size_eq t
    simp only [dead, Bool.false_eq_true, if_false] at total
    exact ⟨show t.size < r.size by omega, Nat.le_trans le le'⟩

end Reader

end HttpForms.Multipart
