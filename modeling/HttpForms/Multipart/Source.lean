import HttpForms.Bytes
import HttpForms.Multipart.Failure

/-!
# Sources of octets

A source is asked for at most so many octets and answers with some of them, with none when it has
ended, with an error, or with a reason to ask again. Every answer uses up what it gives, and asking
again uses up the reason, so no source can keep a reader busy for ever. What is finite only until it
ends or fails becomes a source when it is cut off there.
-/

namespace HttpForms.Multipart

/-- What a source answers. -/
inductive Poll
  /-- The next octets; none means that the source has ended. -/
  | data (bytes : Bytes)
  /-- The call was interrupted and has to be repeated. -/
  | interrupted
  /-- Nothing is there yet. -/
  | pending
  | failed (error : StreamError)
  deriving DecidableEq, Repr

namespace Poll

/-- How much an answer uses up. -/
def cost : Poll → Nat
  | .data bytes => bytes.length
  | .interrupted | .pending => 1
  | .failed _ => 0

/-- Whether an answer only asks to be asked again. -/
def isAgain : Poll → Bool
  | .interrupted | .pending => true
  | .data _ | .failed _ => false

/-- Whether a source that answers so has nothing more to give: it has ended or failed. -/
def isLast : Poll → Bool
  | .data bytes => bytes.isEmpty
  | .failed _ => true
  | .interrupted | .pending => false

theorem isLast_of_isAgain {answer : Poll} (again : answer.isAgain = true) :
    answer.isLast = false := by
  cases answer with
  | interrupted | pending => rfl
  | data _ | failed _ => cases again

/-- What ends a source uses nothing up. -/
theorem cost_of_isLast {answer : Poll} (last : answer.isLast = true) : answer.cost = 0 := by
  cases answer with
  | data bytes => exact List.length_eq_zero_iff.2 (List.isEmpty_iff.1 last)
  | interrupted | pending => cases last
  | failed error => rfl

/-- What does not end a source uses something up. -/
theorem cost_pos {answer : Poll} (more : answer.isLast = false) : 0 < answer.cost := by
  cases answer with
  | data bytes =>
    cases bytes with
    | nil => cases more
    | cons b bytes => exact Nat.succ_pos _
  | interrupted | pending => exact Nat.one_pos
  | failed error => cases more

end Poll

/-- Something that octets can be read from. -/
class ByteSource (σ : Type) where
  /-- Asks for at most so many octets. -/
  poll : σ → Nat → Poll × σ
  /-- What is left to be used up. -/
  size : σ → Nat
  /-- An answer uses up its cost. -/
  cost_le : ∀ source room, (poll source room).1.cost + size (poll source room).2 ≤ size source

/-! ## Sources that are cut off -/

/-- Something that octets can be read from until it ends or fails. What it answers behind that, and
whether it ever stops, is left open. -/
class EndingSource (σ : Type) where
  /-- Asks for at most so many octets. -/
  poll : σ → Nat → Poll × σ
  /-- What is left to be used up until it ends or fails. -/
  size : σ → Nat
  /-- An answer behind which more is to come uses up its cost. -/
  cost_le : ∀ source room, (poll source room).1.isLast = false →
    (poll source room).1.cost + size (poll source room).2 ≤ size source

/-- Something that is asked for octets until it ends or fails, and never again. -/
structure CutOff (σ : Type) where
  source : σ
  /-- Whether the last answer has been given. -/
  spent : Bool

namespace CutOff

variable {σ : Type} [EndingSource σ]

/-- Where nothing has been asked for. -/
def start (source : σ) : CutOff σ :=
  ⟨source, false⟩

/-- Asks for octets. Behind the last answer there are none. -/
def poll (c : CutOff σ) (room : Nat) : Poll × CutOff σ :=
  if c.spent then (.data [], c)
  else
    let (answer, source) := EndingSource.poll c.source room
    (answer, ⟨source, answer.isLast⟩)

/-- What is left to be used up. -/
def size (c : CutOff σ) : Nat :=
  if c.spent then 0 else EndingSource.size c.source

theorem poll_cost_le (c : CutOff σ) (room : Nat) :
    (c.poll room).1.cost + (c.poll room).2.size ≤ c.size := by
  cases spent : c.spent with
  | true => simp [poll, size, spent, Poll.cost]
  | false =>
    have cost := EndingSource.cost_le c.source room
    cases last : (EndingSource.poll c.source room).1.isLast with
    | true => simp [poll, size, spent, last, Poll.cost_of_isLast last]
    | false => simpa [poll, size, spent, last] using cost last

instance : ByteSource (CutOff σ) where
  poll := poll
  size := size
  cost_le := poll_cost_le

/-- Up to its last answer it is what was cut off that answers. -/
theorem of_poll {c next : CutOff σ} {room : Nat} {answer : Poll} (more : c.spent = false)
    (asked : ByteSource.poll c room = (answer, next)) :
    EndingSource.poll c.source room = (answer, next.source) ∧ next.spent = answer.isLast := by
  change c.poll room = _ at asked
  rw [poll, more] at asked
  cases asked
  exact ⟨rfl, rfl⟩

end CutOff

/-! ## Scripts -/

/-- What a scripted source does next. -/
inductive Piece
  | data (bytes : Bytes)
  | fail (error : StreamError)
  /-- Answers once as if it had ended. -/
  | finish
  | pending
  deriving DecidableEq, Repr

/-- A source that follows a script and has ended after it. -/
structure Script where
  pieces : List Piece
  deriving DecidableEq, Repr

namespace Script

/-- Asks the first piece. Octets are given up to the end of their piece; pieces without any do not
count. An error of kind interrupted asks to be asked again. -/
def pollPieces (room : Nat) : List Piece → Poll × List Piece
  | [] => (.data [], [])
  | .data [] :: rest => pollPieces room rest
  | .data (b :: bytes) :: rest =>
    (.data ((b :: bytes).take room),
      if room < (b :: bytes).length then .data ((b :: bytes).drop room) :: rest else rest)
  | .fail error :: rest =>
    (if error.kind = .interrupted then .interrupted else .failed error, rest)
  | .finish :: rest => (.data [], rest)
  | .pending :: rest => (.pending, rest)

/-- What a piece gives before it is used up. -/
def pieceSize : Piece → Nat
  | .data bytes => bytes.length
  | _ => 1

/-- What pieces give before they are used up. -/
def piecesSize : List Piece → Nat
  | [] => 0
  | piece :: pieces => pieceSize piece + piecesSize pieces

/-- The octets that pieces hold. -/
def piecesLength : List Piece → Nat
  | [] => 0
  | .data bytes :: pieces => bytes.length + piecesLength pieces
  | _ :: pieces => piecesLength pieces

/-- The octets that have not been read. -/
def unread (s : Script) : Nat :=
  piecesLength s.pieces

theorem pollPieces_cost_le (room : Nat) (pieces : List Piece) :
    (pollPieces room pieces).1.cost + piecesSize (pollPieces room pieces).2 ≤ piecesSize pieces := by
  fun_induction pollPieces room pieces with
  | case1 => simp [Poll.cost]
  | case2 rest ih => simpa [piecesSize, pieceSize] using ih
  | case3 b bytes rest =>
    split
    · simp only [Poll.cost, piecesSize, pieceSize, List.length_take, List.length_drop]
      omega
    · simp only [Poll.cost, piecesSize, pieceSize, List.length_take]
      omega
  | case4 error rest => split <;> simp [Poll.cost, piecesSize, pieceSize]
  | case5 rest => simp [Poll.cost, piecesSize, pieceSize]
  | case6 rest => simp [Poll.cost, piecesSize, pieceSize]

instance : ByteSource Script where
  poll s room := ((pollPieces room s.pieces).1, ⟨(pollPieces room s.pieces).2⟩)
  size s := piecesSize s.pieces
  cost_le s room := pollPieces_cost_le room s.pieces

/-- Octets in pieces of one length; the last piece may be shorter. -/
def chunked (length : Nat) (bytes : Bytes) : List Bytes :=
  if _zero : length = 0 then [bytes]
  else
    match _rest : bytes.drop length with
    | [] => [bytes]
    | b :: rest => bytes.take length :: chunked length (b :: rest)
termination_by bytes.length
decreasing_by
  have shorter := congrArg List.length _rest
  rw [List.length_drop] at shorter
  simp only [List.length_cons] at shorter ⊢
  omega

end Script

/-- A script that starts over behind its last answer, and so goes on for ever. -/
structure Recurring where
  pieces : List Piece
  left : List Piece
  deriving DecidableEq, Repr

instance : EndingSource Recurring where
  poll s room :=
    let (answer, left) := Script.pollPieces room s.left
    (answer, ⟨s.pieces, if answer.isLast then s.pieces else left⟩)
  size s := Script.piecesSize s.left
  cost_le s room more := by simpa [more] using Script.pollPieces_cost_le room s.left

example :
    let ending : Recurring := ⟨[.data [0x61]], []⟩
    (EndingSource.poll (EndingSource.poll ending 8).2 8).1 = .data [0x61] ∧
      ((CutOff.start ending).poll 8).1 = .data [] ∧
      (((CutOff.start ending).poll 8).2.poll 8).1 = .data [] := by decide

end HttpForms.Multipart
