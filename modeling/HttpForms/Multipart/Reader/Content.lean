import HttpForms.Multipart.Reader.Fill

/-!
# Reading content

The content of a section comes in portions, each as large as the room for it and what has arrived
allow. The source is asked only while there is nothing to give away.

Results:

1. `poll_remaining` — what is read leaves less to be read, and so does having to wait;
2. `read_remaining` — the same of a reader that waits.
-/

namespace HttpForms.Multipart.Reader

variable {σ : Type} [ByteSource σ]

/-- Reads content of the section at hand, at most `room` octets; none are read at its end, or when
there is no room. -/
def poll (mode : Mode) (r : Reader σ) (room : Nat) : Polled (Except Failure Bytes) × Reader σ :=
  if room = 0 then (.ready (.ok []), r)
  else
    match _read : r.scanner.readBody room with
    | (.ok (.data bytes), s) => (.ready (.ok bytes), { r with scanner := s })
    | (.ok .finished, s) => (.ready (.ok []), { r with scanner := s })
    | (.error failure, s) => (.ready (.error failure), { r with scanner := s })
    | (.ok .needInput, s) =>
      match _asked : ask mode { r with scanner := s } with
      | (.ready (.ok ()), t) => poll mode t room
      | (.ready (.error failure), t) => (.ready (.error failure), t)
      | (.pending, t) => (.pending, t)
termination_by r.backlog
decreasing_by
  have reads := Scanner.readBody_reads r.scanner room
  rw [_read] at reads
  have asks := ask_progress mode { r with scanner := s }
  rw [_asked] at asks
  have less := asks.2.2 reads.2.1
  simp only [backlog, reads.1, reads.2.1] at less ⊢
  exact less

/-- The octets that were read. -/
def taken : Except Failure Bytes → Bytes
  | .ok bytes => bytes
  | .error _ => []

/-- What polling may do to a reader. -/
def Polls (r : Reader σ) : Polled (Except Failure Bytes) × Reader σ → Prop
  | (.pending, t) => t.remaining < r.remaining
  | (.ready result, t) => (taken result).length + t.remaining ≤ r.remaining

private theorem Polls.mono {r t : Reader σ} {result : Polled (Except Failure Bytes) × Reader σ}
    (polls : Polls t result) (le : t.remaining ≤ r.remaining) : Polls r result := by
  match result, polls with
  | (.pending, u), h => exact Nat.lt_of_lt_of_le h le
  | (.ready _, u), h => exact Nat.le_trans h le

/-- What is read leaves less to be read, and so does having to wait. -/
theorem poll_remaining (mode : Mode) (r : Reader σ) (room : Nat) :
    Polls r (r.poll mode room) := by
  fun_induction poll mode r room with
  | case1 r => exact Nat.le_of_eq (Nat.zero_add _)
  | case2 r _ bytes s read =>
    have reads := Scanner.readBody_reads r.scanner room
    rw [read] at reads
    have := reads.2
    simp only [Polls, taken, remaining, Portion.bytes] at this ⊢
    omega
  | case3 r _ s read =>
    have reads := Scanner.readBody_reads r.scanner room
    rw [read] at reads
    have := reads.2
    simp only [Polls, taken, remaining, Portion.bytes] at this ⊢
    omega
  | case4 r _ failure s read =>
    have reads := Scanner.readBody_reads r.scanner room
    rw [read] at reads
    have := reads.2
    simp only [Polls, taken, remaining, List.length_nil] at this ⊢
    omega
  | case5 r _ s read t asked ih =>
    have reads := Scanner.readBody_reads r.scanner room
    rw [read] at reads
    have asks := ask_progress mode { r with scanner := s }
    rw [asked] at asks
    exact ih.mono (Nat.le_trans asks.2.1 (Nat.add_le_add_left reads.2.2 _))
  | case6 r _ s read failure t asked =>
    have reads := Scanner.readBody_reads r.scanner room
    rw [read] at reads
    have asks := ask_progress mode { r with scanner := s }
    rw [asked] at asks
    have le := Nat.le_trans asks.2 (Nat.add_le_add_left reads.2.2 _)
    exact Nat.le_trans (Nat.le_of_eq (Nat.zero_add _)) le
  | case7 r _ s read t asked =>
    have reads := Scanner.readBody_reads r.scanner room
    rw [read] at reads
    have asks := ask_progress mode { r with scanner := s }
    rw [asked] at asks
    obtain ⟨same, less⟩ := asks
    have := reads.2.2
    simp only [Polls, remaining, same] at less ⊢
    omega

/-- Reads content and waits until there is an answer. -/
def read (mode : Mode) (r : Reader σ) (room : Nat) : Except Failure Bytes × Reader σ :=
  match _polled : r.poll mode room with
  | (.ready result, t) => (result, t)
  | (.pending, t) => read mode t room
termination_by r.remaining
decreasing_by
  have polls := poll_remaining mode r room
  rw [_polled] at polls
  exact polls

theorem read_remaining (mode : Mode) (r : Reader σ) (room : Nat) :
    (taken (r.read mode room).1).length + (r.read mode room).2.remaining ≤ r.remaining := by
  fun_induction read mode r room with
  | case1 r result t polled =>
    have polls := poll_remaining mode r room
    rw [polled] at polls
    exact polls
  | case2 r t polled ih =>
    have polls := poll_remaining mode r room
    rw [polled] at polls
    exact Nat.le_trans ih (Nat.le_of_lt polls)

end HttpForms.Multipart.Reader
