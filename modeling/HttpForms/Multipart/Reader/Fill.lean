import HttpForms.Multipart.Reader.Basic

/-!
# Asking the source

A source is asked for one chunk at a time. Its octets go to the scanner, no octets end the input, and
an error stops the scanner for good.

Results:

1. `ask_progress` — asking the source uses something up;
2. `fill_progress` — so does asking it until there is an answer.
-/

namespace HttpForms.Multipart.Reader

variable {σ : Type}

section ScannerLemmas

private theorem length_absorb (r : Reader σ) (source : σ) (bytes : Bytes) :
    (r.absorb source bytes).scanner.buffer.bytes.length ≤
      r.scanner.buffer.bytes.length + bytes.length := by
  cases bytes with
  | nil => exact Nat.le_add_right _ _
  | cons b bytes =>
    simp only [absorb, List.isEmpty_cons, Bool.false_eq_true, if_false, Scanner.feed]
    split
    · omega
    · simp [SearchBuffer.extend]

private theorem phase_absorb (r : Reader σ) (source : σ) (bytes : Bytes) :
    (r.absorb source bytes).scanner.phase = r.scanner.phase := by
  cases bytes with
  | nil => rfl
  | cons b bytes =>
    simp only [absorb, List.isEmpty_cons, Bool.false_eq_true, if_false, Scanner.feed]
    split <;> rfl

end ScannerLemmas

variable [ByteSource σ]

/-- Asks the source for input. An interrupted call is repeated. -/
def ask (mode : Mode) (r : Reader σ) : Polled (Except Failure Unit) × Reader σ :=
  match _asked : ByteSource.poll r.source r.chunkSize with
  | (.data bytes, source) => (.ready (.ok ()), r.absorb source bytes)
  | (.failed error, source) => (.ready (.error (.source error)), r.stop source error)
  | (.interrupted, source) => ask mode { r with source := source }
  | (.pending, source) =>
    match mode with
    | .blocking => ask .blocking { r with source := source }
    | .polled => (.pending, { r with source := source })
termination_by ByteSource.size r.source
decreasing_by
  all_goals
    have cost := ByteSource.cost_le r.source r.chunkSize
    rw [_asked] at cost
    simp only [Poll.cost] at cost
    omega

section AskLemmas

variable {r : Reader σ} {mode : Mode}

/-- What asking may do to a reader. -/
def Asks (r : Reader σ) : Polled (Except Failure Unit) × Reader σ → Prop
  | (.pending, t) => t.scanner = r.scanner ∧ ByteSource.size t.source < ByteSource.size r.source
  | (.ready (.ok ()), t) =>
    t.scanner.phase = r.scanner.phase ∧ t.remaining ≤ r.remaining ∧
      (r.scanner.ended = false → t.backlog < r.backlog)
  | (.ready (.error _), t) => t.scanner.phase.isLive = false ∧ t.remaining ≤ r.remaining

private theorem asks_data {source : σ} {bytes : Bytes}
    (asked : ByteSource.poll r.source r.chunkSize = (.data bytes, source)) :
    Asks r (.ready (.ok ()), r.absorb source bytes) := by
  have cost := ByteSource.cost_le r.source r.chunkSize
  rw [asked] at cost
  simp only [Poll.cost] at cost
  refine ⟨phase_absorb r source bytes, ?_, ?_⟩
  · have length := length_absorb r source bytes
    simp only [remaining, absorb] at length ⊢
    omega
  · intro more
    cases bytes with
    | nil =>
      simp only [backlog, absorb, List.isEmpty_nil, if_true, Scanner.finish, more,
        Bool.false_eq_true, if_false, List.length_nil] at cost ⊢
      omega
    | cons b bytes =>
      simp only [backlog, absorb, List.isEmpty_cons, Bool.false_eq_true, if_false, Scanner.feed,
        more, List.length_cons] at cost ⊢
      omega

private theorem asks_failed {source : σ} {error : StreamError}
    (asked : ByteSource.poll r.source r.chunkSize = (.failed error, source)) :
    Asks r (.ready (.error (.source error)), r.stop source error) := by
  have cost := ByteSource.cost_le r.source r.chunkSize
  rw [asked] at cost
  simp only [Poll.cost] at cost
  refine ⟨rfl, ?_⟩
  simp only [remaining, stop, Scanner.abort]
  omega

/-- The source was used up by what made the reader ask it again. -/
private theorem Asks.again {source : σ} {result : Polled (Except Failure Unit) × Reader σ}
    (asks : Asks { r with source := source } result)
    (less : ByteSource.size source < ByteSource.size r.source) : Asks r result := by
  match result, asks with
  | (.pending, t), h => exact ⟨h.1, Nat.lt_trans h.2 less⟩
  | (.ready (.ok ()), t), h =>
    simp only [Asks, remaining, backlog] at h ⊢
    exact ⟨h.1, by omega, fun more => by have := h.2.2 more; omega⟩
  | (.ready (.error _), t), h =>
    simp only [Asks, remaining] at h ⊢
    exact ⟨h.1, by omega⟩

/-- Asking uses something up: the source by having to wait, the backlog by an answer. -/
theorem ask_progress (mode : Mode) (r : Reader σ) : Asks r (r.ask mode) := by
  fun_induction ask mode r with
  | case1 mode r bytes source asked => exact asks_data asked
  | case2 mode r error source asked => exact asks_failed asked
  | case3 mode r source asked ih =>
    have cost := ByteSource.cost_le r.source r.chunkSize
    rw [asked] at cost
    exact ih.again (by simp only [Poll.cost] at cost; omega)
  | case4 r source asked ih =>
    have cost := ByteSource.cost_le r.source r.chunkSize
    rw [asked] at cost
    exact ih.again (by simp only [Poll.cost] at cost; omega)
  | case5 r source asked =>
    have cost := ByteSource.cost_le r.source r.chunkSize
    rw [asked] at cost
    exact ⟨rfl, by simp only [Poll.cost] at cost ⊢; omega⟩

end AskLemmas

/-- Asks the source and waits until there is an answer. -/
def fill (mode : Mode) (r : Reader σ) : Except Failure Unit × Reader σ :=
  match _asked : r.ask mode with
  | (.ready result, t) => (result, t)
  | (.pending, t) => fill mode t
termination_by ByteSource.size r.source
decreasing_by
  have asks := ask_progress mode r
  rw [_asked] at asks
  exact asks.2

theorem fill_progress (mode : Mode) (r : Reader σ) :
    Asks r (.ready (r.fill mode).1, (r.fill mode).2) := by
  fun_induction fill mode r with
  | case1 r result t asked =>
    have asks := ask_progress mode r
    rwa [asked] at asks
  | case2 r t asked ih =>
    have asks := ask_progress mode r
    rw [asked] at asks
    rcases r with ⟨source, scanner, chunkSize⟩
    obtain ⟨same, less⟩ := asks
    rcases filled : t.fill mode with ⟨_ | _, u⟩
    · rw [filled] at ih
      simp only [Asks, remaining] at ih same less ⊢
      rw [same] at ih
      exact ⟨ih.1, by omega⟩
    · rw [filled] at ih
      simp only [Asks, remaining, backlog] at ih same less ⊢
      rw [same] at ih
      exact ⟨ih.1, by omega, fun more => by have := ih.2.2 more; omega⟩

end HttpForms.Multipart.Reader
