import HttpForms.Decimal.Natural
import HttpForms.Text.Quoted

/-!
# Failures

Reading a body can fail because of its shape or because its source does. A source reports an error
of its own kind; a section is itself a source for a body nested in it, so such an error can carry the
failure of the enclosing body, and `Failure.ofStream` takes that out again.

Results:

1. `Failure.ofStream_toStream` — a failure of the body's shape survives the way through a stream;
2. `Failure.replay_replay` — repeating a repeated failure changes nothing any more.
-/

namespace HttpForms.Multipart

/-- What went wrong with a stream. Only an interruption is treated in a way of its own. -/
inductive StreamError.Kind
  | connectionReset
  | brokenPipe
  | timedOut
  | invalidData
  | invalidInput
  | unexpectedEof
  | permissionDenied
  | writeZero
  | other
  | interrupted
  /-- Any other kind, known by its text. -/
  | another (text : String)
  deriving DecidableEq, Repr

/-- The text of an error of which nothing but the kind is known. -/
def StreamError.Kind.text : StreamError.Kind → String
  | .connectionReset => "connection reset"
  | .brokenPipe => "broken pipe"
  | .timedOut => "timed out"
  | .invalidData => "invalid data"
  | .invalidInput => "invalid input parameter"
  | .unexpectedEof => "unexpected end of file"
  | .permissionDenied => "permission denied"
  | .writeZero => "write zero"
  | .other => "other error"
  | .interrupted => "operation interrupted"
  | .another text => text

mutual

/-- Why a body cannot be read or written. -/
inductive Failure
  /-- The text is no boundary, or none is to be had from it. -/
  | invalidBoundary (text : String)
  /-- The stream ends before any boundary line. -/
  | unterminatedPreamble
  /-- The stream ends inside the headers of a section. -/
  | unterminatedHeaders
  /-- The headers of a section are longer than they may be. -/
  | headersTooLarge (limit : Nat)
  /-- The stream ends before the closing boundary line. -/
  | unterminatedBody
  /-- The stream fails. -/
  | source (error : StreamError)
  deriving DecidableEq, Repr

/-- An error of a stream. -/
inductive StreamError
  /-- Nothing but the kind. -/
  | plain (kind : StreamError.Kind)
  /-- A kind and a text for it. -/
  | described (kind : StreamError.Kind) (text : String)
  /-- A kind, and the failure of a body behind it. -/
  | carrying (kind : StreamError.Kind) (failure : Failure)
  /-- A kind, and another error behind it. -/
  | wrapping (kind : StreamError.Kind) (inner : StreamError)
  deriving DecidableEq, Repr

end

/-- The wording of a failure. That of a source is not part of it. -/
def Failure.message : Failure → String
  | .invalidBoundary text => "invalid multipart boundary " ++ Text.quoted text
  | .unterminatedPreamble => "end of stream before the first boundary"
  | .unterminatedHeaders => "end of stream before the end of section headers"
  | .headersTooLarge limit => "section headers exceed " ++ Decimal.text limit ++ " bytes"
  | .unterminatedBody => "end of stream before the closing boundary"
  | .source _ => "error reading multipart source"

namespace StreamError

/-- The kind of an error. -/
def kind : StreamError → Kind
  | .plain kind | .described kind _ | .carrying kind _ | .wrapping kind _ => kind

/-- The text of an error. -/
def text : StreamError → String
  | .plain kind => kind.text
  | .described _ text => text
  | .carrying _ failure => failure.message
  | .wrapping _ inner => inner.text

end StreamError

namespace Failure

/-- Whether the shape of the body is at fault, rather than its source or the boundary asked for. -/
def isStructural : Failure → Bool
  | .unterminatedPreamble | .unterminatedHeaders | .headersTooLarge _ | .unterminatedBody => true
  | .invalidBoundary _ | .source _ => false

/-- What later reads report again: of a source's error only the kind and the text are kept. -/
def replay : Failure → Failure
  | .source error => .source (.described error.kind error.text)
  | failure => failure

/-- A failure as the stream of a section reports it. An error of the source goes through as it is;
every other failure is carried as invalid data. -/
def toStream : Failure → StreamError
  | .source error => error
  | failure => .carrying .invalidData failure

/-- The failure behind an error of a stream. -/
def ofStream : StreamError → Failure
  | .carrying _ failure => failure
  | error => .source error

theorem replay_replay (failure : Failure) : failure.replay.replay = failure.replay := by
  cases failure <;> rfl

theorem message_replay (failure : Failure) : failure.replay.message = failure.message := by
  cases failure <;> rfl

theorem isStructural_replay (failure : Failure) :
    failure.replay.isStructural = failure.isStructural := by
  cases failure <;> rfl

theorem ofStream_toStream {failure : Failure} (shape : ∀ error, failure ≠ .source error) :
    ofStream failure.toStream = failure := by
  cases failure with
  | source error => exact absurd rfl (shape error)
  | _ => rfl

end Failure

end HttpForms.Multipart
