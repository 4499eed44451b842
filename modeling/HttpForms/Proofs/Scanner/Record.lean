import HttpForms.Multipart.Section
import HttpForms.Proofs.Scanner.Schedule

/-!
# The record of a body

A scanner that is fed a whole body and then asked until it is done records all that the body holds.
That record is the parse of the body: the grammar says of every sequence of octets what is found in it,
and the scanner finds just that.

Result: `record_eq_iff` — the record of a body is the list of items that it parses as.
-/

namespace HttpForms.Multipart.Scanner

variable {s : Scanner} {items more : List Item} {room : Nat} {content : Bytes}

/-! ## Reading out -/

/-- Reads the content of the section at hand to its end, with room for so many octets at a time. -/
def readOut (s : Scanner) (room : Nat) : Content × Scanner :=
  match _read : s.readBody room with
  | (.ok (.data (b :: bytes)), t) =>
    let (rest, u) := t.readOut room
    (⟨b :: bytes ++ rest.bytes, rest.failure⟩, u)
  | (.ok _, t) => (⟨[], none⟩, t)
  | (.error failure, t) => (⟨[], some failure⟩, t)
termination_by s.buffer.bytes.length
decreasing_by
  have reads := readBody_reads s room
  rw [_read] at reads
  have le := reads.2
  simp only [Portion.bytes, List.length_cons] at le
  omega

theorem length_of_readBody {result : Except Failure Portion} {t : Scanner}
    (read : s.readBody room = (result, t)) : t.buffer.bytes.length ≤ s.buffer.bytes.length := by
  have reads := readBody_reads s room
  rw [read] at reads
  match result, reads with
  | .ok .needInput, reads => exact reads.2.2
  | .ok (.data bytes), reads => exact Nat.le_trans (Nat.le_add_left _ _) reads.2
  | .ok .finished, reads => exact Nat.le_trans (Nat.le_add_left _ _) reads.2
  | .error failure, reads => exact reads.2

theorem readOut_length (s : Scanner) (room : Nat) :
    (s.readOut room).2.buffer.bytes.length ≤ s.buffer.bytes.length := by
  fun_induction readOut s room with
  | case1 s b bytes t read rest u later ih =>
    rw [later] at ih
    exact Nat.le_trans ih (length_of_readBody read)
  | case2 s portion t _ read => exact length_of_readBody read
  | case3 s failure t read => exact length_of_readBody read

/-- All that a body holds: asks for one step after the other and reads every section out. -/
def record (s : Scanner) (room : Nat) : List Item :=
  match _step : s.next with
  | (.ok (.preamble bytes), t) => .preamble bytes :: t.record room
  | (.ok (.opened headers), t) =>
    let out := t.readOut room
    .opened headers :: .content out.1.bytes ::
      (out.1.failure.toList.map .failed ++ out.2.record room)
  | (.ok (.epilogue bytes), t) => .epilogue bytes :: t.record room
  | (.error failure, t) => .failed failure :: t.record room
  | (.ok .needInput, _) | (.ok .done, _) => []
termination_by s.weight
decreasing_by
  all_goals
    have advances := next_advances s
    rw [_step] at advances
  · exact advances.2
  · have le := readOut_length t room
    have lt := advances.2.1
    have one : (if (t.readOut room).2.phase.isLive then 1 else 0) ≤ 1 := by split <;> omega
    simp only [weight, advances.2.2, if_true] at lt ⊢
    exact Nat.lt_of_le_of_lt (Nat.add_le_add le one) lt
  · exact advances.2
  · exact advances.2

/-! ## The record is the parse -/

/-- What reading out comes to. -/
def ReadsOut (content : Bytes) (more : List Item) : Content × Scanner → Prop
  | (out, t) => out.bytes = content ∧ t.ended = true ∧ ∃ later, t.Foresees [] later ∧
      more = out.failure.toList.map .failed ++ pastContent later

theorem readOut_reads (foresees : s.Foresees [] (.content content :: more)) (phase : s.phase = .body)
    (ended : s.ended = true) (space : 0 < room) : ReadsOut content more (s.readOut room) := by
  fun_induction readOut s room generalizing content with
  | case1 s b bytes t read rest u later ih =>
    obtain ⟨⟨left, rfl, -, body, onward⟩, reads⟩ := foresees.readBody phase space read
    rw [later] at ih
    obtain ⟨same, finished, behind⟩ := ih onward body (reads.1.trans ended)
    exact ⟨by rw [← same], finished, behind⟩
  | case2 s portion t notData read =>
    obtain ⟨yields, reads⟩ := foresees.readBody phase space read
    match portion, yields with
    | .needInput, ⟨open_, _⟩ =>
      have unended := reads.1
      exact absurd ended (by simp [unended])
    | .data (b :: bytes), _ => exact absurd rfl (notData b bytes)
    | .data [], ⟨_, _, solid, _⟩ => exact absurd rfl solid
    | .finished, ⟨nothing, behind, onward⟩ =>
      exact ⟨nothing.symm, reads.1.trans ended, more, onward, (onward.behind behind).symm⟩
  | case3 s failure t read =>
    obtain ⟨⟨rfl, rfl, -, onward⟩, reads⟩ := foresees.readBody phase space read
    exact ⟨rfl, reads.1.trans ended, [], onward, rfl⟩

theorem record_of_foresees (foresees : s.Foresees [] items) (ended : s.ended = true)
    (space : 0 < room) : s.record room = pastContent items := by
  fun_induction record s room generalizing items with
  | case1 s bytes t step ih =>
    obtain ⟨⟨more, same, phase, onward⟩, advances⟩ := foresees.next step
    rw [same, ih onward (advances.1.trans ended), onward.behind phase]
  | case2 s headers t step out =>
    rename_i ih
    obtain ⟨⟨content, more, same, body, onward⟩, advances⟩ := foresees.next step
    obtain ⟨read, finished, later, behind, rfl⟩ :=
      readOut_reads onward body (advances.1.trans ended) space
    rw [same, read, ih behind finished]
  | case3 s bytes t step ih =>
    obtain ⟨⟨same, -, onward⟩, advances⟩ := foresees.next step
    rw [same, ih onward (advances.1.trans ended)]
    rfl
  | case4 s failure t step ih =>
    obtain ⟨⟨same, -, onward⟩, advances⟩ := foresees.next step
    rw [same, ih onward (advances.1.trans ended)]
    rfl
  | case5 s t step =>
    obtain ⟨-, advances⟩ := foresees.next step
    exact absurd ended (by simp [advances.1])
  | case6 s t step =>
    obtain ⟨⟨same, -⟩, -⟩ := foresees.next step
    exact same.symm

variable {b : Boundary} {charset : Charset} {limits : Limits} {input : Bytes}

/-- A body that is fed whole is recorded as what it parses as. -/
theorem record_eq_iff (space : 0 < room) :
    ((new b charset limits).feed input).finish.record room = items ↔
      Format.Parses ⟨b, charset, limits.headerLimit⟩ .front input items := by
  have recorded : ∀ {items}, Format.Parses ⟨b, charset, limits.headerLimit⟩ .front input items →
      ((new b charset limits).feed input).finish.record room = items := by
    intro items parses
    rw [← List.append_nil input] at parses
    have foresees := (new_foresees.2 parses).feed.finish
    rw [record_of_foresees foresees rfl space]
    cases parses <;> rfl
  constructor
  · rintro rfl
    obtain ⟨items, parses⟩ := Format.exists_parses ⟨b, charset, limits.headerLimit⟩ .front input
    rw [recorded parses]
    exact parses
  · exact recorded

/-- The look-alike is content, and the closing line has nothing behind it. -/
theorem record_eq_iff_sample :
    0 < 3 ∧ Format.Parses ⟨sampleBoundary, .utf8, Limits.default.headerLimit⟩ .front sampleBody
      [.preamble [], .opened .empty, .content (Utf8.encode "abc\r\n--bx"), .epilogue []] := by
  have recorded : ((new sampleBoundary .utf8 .default).feed sampleBody).finish.record 3 =
      [.preamble [], .opened .empty, .content (Utf8.encode "abc\r\n--bx"), .epilogue []] := by
    decide +kernel
  exact ⟨by decide, (record_eq_iff (by decide)).1 recorded⟩

end HttpForms.Multipart.Scanner
