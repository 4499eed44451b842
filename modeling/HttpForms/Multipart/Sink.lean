import HttpForms.Bytes
import HttpForms.Multipart.Failure

/-!
# Sinks of octets

A sink is offered octets and takes as many of them as it likes from the front. What it did not take
is offered again, and so is everything after an interruption. A sink that takes nothing, although
something is offered, is full.

Result: `putChunks_accepted` — what a sink has taken is a front of what it was offered, and all of it
unless it failed.
-/

namespace HttpForms.Multipart

/-- What a sink does with the octets that it is offered. -/
inductive Acceptance
  /-- It takes so many of them. -/
  | taken (count : Nat)
  /-- The call failed. After an interruption it is repeated. -/
  | failed (error : StreamError)
  deriving DecidableEq, Repr

/-- Something that octets can be written to. -/
class ByteSink (τ : Type) where
  /-- Offers octets. -/
  offer : τ → Bytes → Acceptance × τ
  /-- Asks that everything taken is passed on. -/
  flush : τ → Except StreamError Unit × τ
  /-- How often in a row an offer of these octets can be interrupted. -/
  patience : τ → Bytes → Nat
  /-- An interruption uses patience up. -/
  patience_lt : ∀ {sink bytes error t}, offer sink bytes = (.failed error, t) →
    error.kind = .interrupted → patience t bytes < patience sink bytes

/-- What became of octets that were to be written. -/
structure Delivery where
  /-- The octets that the sink took. -/
  accepted : Bytes
  /-- What kept it from taking more. -/
  failure : Option StreamError
  deriving DecidableEq, Repr

/-- A sink took nothing although something was offered. -/
def sinkFull : StreamError :=
  .described .writeZero "failed to write whole buffer"

namespace ByteSink

variable {τ : Type} [ByteSink τ]

/-- Offers octets until all of them are taken or the sink fails. -/
def put (sink : τ) (bytes : Bytes) : Delivery × τ :=
  if _none : bytes = [] then (⟨[], none⟩, sink)
  else
    match _offered : offer sink bytes with
    | (.taken 0, t) => (⟨[], some sinkFull⟩, t)
    | (.taken (n + 1), t) =>
      let (rest, u) := put t (bytes.drop (n + 1))
      (⟨bytes.take (n + 1) ++ rest.accepted, rest.failure⟩, u)
    | (.failed error, t) =>
      if _again : error.kind = .interrupted then put t bytes else (⟨[], some error⟩, t)
termination_by (bytes.length, patience sink bytes)
decreasing_by
  · have := List.length_pos_iff.2 _none
    exact Prod.Lex.left _ _ (by rw [List.length_drop]; omega)
  · exact Prod.Lex.right _ (patience_lt _offered _again)

/-- Writes one chunk after the other, up to the first that fails. -/
def putChunks (sink : τ) : List Bytes → Delivery × τ
  | [] => (⟨[], none⟩, sink)
  | chunk :: chunks =>
    match put sink chunk with
    | (⟨accepted, none⟩, t) =>
      let (rest, u) := putChunks t chunks
      (⟨accepted ++ rest.accepted, rest.failure⟩, u)
    | (delivery, t) => (delivery, t)

/-- Writes all chunks and passes them on. -/
def putAll (sink : τ) (chunks : List Bytes) : Delivery × τ :=
  match putChunks sink chunks with
  | (⟨accepted, none⟩, t) =>
    match flush t with
    | (.ok (), u) => (⟨accepted, none⟩, u)
    | (.error error, u) => (⟨accepted, some error⟩, u)
  | (delivery, t) => (delivery, t)

section SinkLemmas

theorem put_accepted (sink : τ) (bytes : Bytes) :
    (put sink bytes).1.accepted <+: bytes ∧
      ((put sink bytes).1.failure = none → (put sink bytes).1.accepted = bytes) := by
  fun_induction put sink bytes with
  | case1 sink => simp
  | case2 sink bytes _ t offered => simp
  | case3 sink bytes _ n t offered rest u put ih =>
    rw [put] at ih
    constructor
    · conv => rhs; rw [← List.take_append_drop (n + 1) bytes]
      exact (List.prefix_append_right_inj _).2 ih.1
    · intro whole
      rw [ih.2 whole, List.take_append_drop]
  | case4 sink bytes _ error t offered _ ih => exact ih
  | case5 sink bytes _ error t offered _ => simp

theorem putChunks_accepted (sink : τ) (chunks : List Bytes) :
    (putChunks sink chunks).1.accepted <+: chunks.flatten ∧
      ((putChunks sink chunks).1.failure = none →
        (putChunks sink chunks).1.accepted = chunks.flatten) := by
  fun_induction putChunks sink chunks with
  | case1 sink => simp
  | case2 sink chunk chunks accepted t first rest u more ih =>
    have whole := (put_accepted sink chunk).2
    rw [first] at whole
    rw [more] at ih
    rw [show accepted = chunk from whole rfl, List.flatten_cons]
    exact ⟨(List.prefix_append_right_inj _).2 ih.1, fun done => by rw [ih.2 done]⟩
  | case3 sink chunk chunks delivery t unfinished first =>
    have front := put_accepted sink chunk
    rw [first] at front
    refine ⟨front.1.trans (by simp), fun done => ?_⟩
    rcases delivery with ⟨accepted, _ | error⟩
    · exact absurd rfl (unfinished accepted)
    · simp at done

end SinkLemmas

end ByteSink

/-! ## Sinks of a fixed size -/

/-- A sink with room for so many octets. -/
structure FixedSink where
  room : Nat
  deriving DecidableEq, Repr

instance : ByteSink FixedSink where
  offer sink bytes :=
    (.taken (min sink.room bytes.length), ⟨sink.room - min sink.room bytes.length⟩)
  flush sink := (.ok (), sink)
  patience _ _ := 0
  patience_lt offered := by cases offered

example : (ByteSink.putAll (FixedSink.mk 3) [[1, 2], [3, 4]]).1 = ⟨[1, 2, 3], some sinkFull⟩ := by
  cbv

end HttpForms.Multipart
