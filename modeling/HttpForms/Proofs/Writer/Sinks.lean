import Mathlib.Data.List.Permutation
import HttpForms.Proofs.Writer.Forms

/-!
# What a sink gets of a body

A writer looks at all of its parts before it offers the first octet, so a body that is refused leaves a
sink as it was. A body that is not refused goes to the sink from its front on, in whatever portions the
sink takes it; whatever the sink does, what it has taken is a front of the body, and what goes wrong
with it is reported.

What the sink does is not taken from the report: a `Recorder` stands between the writer and the sink
and notes every call with its answer.

Results:

1. `put_recorded`, `writeTo_recorded` — a recorder changes nothing, and its notes agree with the report;
2. `Writer.refusal?_eq_none_iff` — what a body is refused for;
3. `Writer.writeTo_faithful` — a sink gets nothing of a body that is refused, and a front of any other.
-/

namespace HttpForms.Multipart

/-! ## Calls to a sink -/

/-- A call to a sink, with its answer. -/
inductive SinkCall
  | offer (bytes : Bytes) (answer : Acceptance)
  | flush (answer : Except StreamError Unit)
  deriving DecidableEq, Repr

namespace SinkCall

/-- The octets that the sink took. -/
def taken : SinkCall → Bytes
  | .offer bytes (.taken count) => bytes.take count
  | _ => []

/-- The error of a call that failed. To take nothing of something is to fail, to be interrupted is
not. -/
def failure? : SinkCall → Option StreamError
  | .offer bytes (.taken count) => if count = 0 ∧ bytes ≠ [] then some sinkFull else none
  | .offer _ (.failed error) => if error.kind = .interrupted then none else some error
  | .flush (.error error) => some error
  | .flush (.ok ()) => none

end SinkCall

/-- All octets that a sink took, in order. -/
def takenBy (calls : List SinkCall) : Bytes :=
  calls.flatMap SinkCall.taken

/-- A sink, and the calls that were made to it. -/
structure Recorder (τ : Type) where
  sink : τ
  calls : List SinkCall

instance {τ : Type} [ByteSink τ] : ByteSink (Recorder τ) where
  offer r bytes := ((ByteSink.offer r.sink bytes).1,
    ⟨(ByteSink.offer r.sink bytes).2, r.calls ++ [.offer bytes (ByteSink.offer r.sink bytes).1]⟩)
  flush r := ((ByteSink.flush r.sink).1,
    ⟨(ByteSink.flush r.sink).2, r.calls ++ [.flush (ByteSink.flush r.sink).1]⟩)
  patience r bytes := ByteSink.patience r.sink bytes
  patience_lt offered interrupted := by
    obtain ⟨answer, rfl⟩ := Prod.mk.inj offered
    exact ByteSink.patience_lt (Prod.ext answer rfl) interrupted

/-- A report that agrees with the calls that were made: what was taken in them was accepted, and the
failure is the error of a call that failed. -/
structure Delivery.Tells (d : Delivery) (calls : List SinkCall) : Prop where
  accepted : d.accepted = takenBy calls
  failure : ∀ error, d.failure = some error ↔ ∃ call ∈ calls, call.failure? = some error

section RecorderLemmas

variable {τ : Type} [ByteSink τ] {sink t : τ} {log calls later : List SinkCall} {c : SinkCall}
  {bytes accepted : Bytes} {d : Delivery}

theorem Delivery.Tells.nil : Delivery.Tells ⟨[], none⟩ [] where
  accepted := rfl
  failure _ := by simp

/-- A call that does not fail goes before the others. -/
theorem Delivery.Tells.cons (tells : d.Tells calls) (harmless : c.failure? = none) :
    Delivery.Tells ⟨c.taken ++ d.accepted, d.failure⟩ (c :: calls) where
  accepted := by rw [tells.accepted]; rfl
  failure error := by simp [tells.failure, harmless]

/-- A call that fails is the last one. -/
theorem Delivery.Tells.last {error : StreamError} (fails : c.failure? = some error)
    (nothing : c.taken = []) : Delivery.Tells ⟨[], some error⟩ [c] where
  accepted := by simp [takenBy, nothing]
  failure other := by simp [fails]

/-- What is written behind something that was written whole. -/
theorem Delivery.Tells.append (tells : Delivery.Tells ⟨accepted, none⟩ calls)
    (onward : d.Tells later) :
    Delivery.Tells ⟨accepted ++ d.accepted, d.failure⟩ (calls ++ later) where
  accepted := by
    rw [takenBy, List.flatMap_append, ← takenBy, ← takenBy, ← tells.accepted, ← onward.accepted]
  failure error := by
    have none : ¬ ∃ call ∈ calls, call.failure? = some error := by simp [← tells.failure]
    simp only [onward.failure, List.mem_append, or_and_right, exists_or, none, false_or]

theorem offer_recorded {answer : Acceptance} (offered : ByteSink.offer sink bytes = (answer, t))
    (log : List SinkCall) : ByteSink.offer (Recorder.mk sink log) bytes =
      (answer, ⟨t, log ++ [.offer bytes answer]⟩) := by
  simp [ByteSink.offer, offered]

/-- What writing does with one answer of the sink. -/
theorem put_eq (sink : τ) (bytes : Bytes) : ByteSink.put sink bytes =
    if bytes = [] then (⟨[], none⟩, sink)
    else
      match ByteSink.offer sink bytes with
      | (.taken 0, t) => (⟨[], some sinkFull⟩, t)
      | (.taken (n + 1), t) =>
        (⟨bytes.take (n + 1) ++ (ByteSink.put t (bytes.drop (n + 1))).1.accepted,
          (ByteSink.put t (bytes.drop (n + 1))).1.failure⟩, (ByteSink.put t (bytes.drop (n + 1))).2)
      | (.failed error, t) =>
        if error.kind = .interrupted then ByteSink.put t bytes else (⟨[], some error⟩, t) := by
  rw [ByteSink.put]
  split
  · rfl
  · split <;> rename_i offered <;> simp only [offered]
    simp

/-- A recorder notes what is done with its sink, and changes nothing of it. -/
theorem put_recorded (sink : τ) (bytes : Bytes) : ∃ calls, (∀ log,
    ByteSink.put (Recorder.mk sink log) bytes =
      ((ByteSink.put sink bytes).1, ⟨(ByteSink.put sink bytes).2, log ++ calls⟩)) ∧
    (ByteSink.put sink bytes).1.Tells calls := by
  fun_induction ByteSink.put sink bytes with
  | case1 sink => exact ⟨[], fun log => by rw [put_eq]; simp, .nil⟩
  | case2 sink bytes some t offered =>
    have fails : (SinkCall.offer bytes (.taken 0)).failure? = .some sinkFull := by
      simp [SinkCall.failure?, some]
    refine ⟨[.offer bytes (.taken 0)], fun log => ?_, .last fails rfl⟩
    rw [put_eq, if_neg some, offer_recorded offered]
  | case3 sink bytes some n t offered rest u put ih =>
    obtain ⟨calls, recorded, tells⟩ := ih
    rw [put] at recorded tells
    have noted := tells.cons (c := .offer bytes (.taken (n + 1))) (by simp [SinkCall.failure?])
    refine ⟨.offer bytes (.taken (n + 1)) :: calls, fun log => ?_, noted⟩
    rw [put_eq, if_neg some, offer_recorded offered]
    simp only [recorded, List.append_assoc, List.singleton_append]
  | case4 sink bytes some error t offered again ih =>
    obtain ⟨calls, recorded, tells⟩ := ih
    have noted := tells.cons (c := .offer bytes (.failed error)) (by simp [SinkCall.failure?, again])
    refine ⟨.offer bytes (.failed error) :: calls, fun log => ?_, noted⟩
    rw [put_eq, if_neg some, offer_recorded offered]
    simp only [again, if_true, recorded, List.append_assoc, List.singleton_append]
  | case5 sink bytes some error t offered fatal =>
    have fails : (SinkCall.offer bytes (.failed error)).failure? = .some error := by
      simp [SinkCall.failure?, fatal]
    refine ⟨[.offer bytes (.failed error)], fun log => ?_, .last fails rfl⟩
    rw [put_eq, if_neg some, offer_recorded offered]
    simp only [fatal, if_false]

theorem putChunks_recorded (sink : τ) (chunks : List Bytes) : ∃ calls, (∀ log,
    ByteSink.putChunks (Recorder.mk sink log) chunks =
      ((ByteSink.putChunks sink chunks).1, ⟨(ByteSink.putChunks sink chunks).2, log ++ calls⟩)) ∧
    (ByteSink.putChunks sink chunks).1.Tells calls := by
  fun_induction ByteSink.putChunks sink chunks with
  | case1 sink => exact ⟨[], fun log => by simp [ByteSink.putChunks], .nil⟩
  | case2 sink chunk chunks accepted t first rest u more ih =>
    obtain ⟨front, recorded, tells⟩ := put_recorded sink chunk
    obtain ⟨later, onward, tellsOn⟩ := ih
    rw [first] at recorded tells
    rw [more] at onward tellsOn
    refine ⟨front ++ later, fun log => ?_, tells.append tellsOn⟩
    simp only [ByteSink.putChunks, recorded, onward, List.append_assoc]
  | case3 sink chunk chunks delivery t unfinished first =>
    obtain ⟨front, recorded, tells⟩ := put_recorded sink chunk
    rw [first] at recorded tells
    refine ⟨front, fun log => ?_, tells⟩
    rcases delivery with ⟨accepted, _ | error⟩
    · exact absurd rfl (unfinished accepted)
    · simp only [ByteSink.putChunks, recorded]

theorem flush_recorded {answer : Except StreamError Unit} (flushed : ByteSink.flush sink = (answer, t))
    (log : List SinkCall) : ByteSink.flush (Recorder.mk sink log) =
      (answer, ⟨t, log ++ [.flush answer]⟩) := by
  simp [ByteSink.flush, flushed]

theorem putAll_recorded (sink : τ) (chunks : List Bytes) : ∃ calls, (∀ log,
    ByteSink.putAll (Recorder.mk sink log) chunks =
      ((ByteSink.putAll sink chunks).1, ⟨(ByteSink.putAll sink chunks).2, log ++ calls⟩)) ∧
    (ByteSink.putAll sink chunks).1.Tells calls := by
  obtain ⟨calls, recorded, tells⟩ := putChunks_recorded sink chunks
  unfold ByteSink.putAll
  rcases whole : ByteSink.putChunks sink chunks with ⟨⟨accepted, _ | error⟩, t⟩ <;>
    rw [whole] at recorded tells
  · rcases flushed : ByteSink.flush t with ⟨error | _, u⟩
    · have all := tells.append (.last (c := .flush (.error error)) rfl rfl)
      rw [List.append_nil] at all
      simp only [flushed]
      refine ⟨calls ++ [.flush (.error error)], fun log => ?_, all⟩
      simp only [recorded, flush_recorded flushed, List.append_assoc]
    · have last : Delivery.Tells ⟨[], none⟩ [.flush (.ok ())] :=
        Delivery.Tells.nil.cons (c := .flush (.ok ())) rfl
      have all := tells.append last
      rw [List.append_nil] at all
      simp only [flushed]
      refine ⟨calls ++ [.flush (.ok ())], fun log => ?_, all⟩
      simp only [recorded, flush_recorded flushed, List.append_assoc]
  · exact ⟨calls, fun log => by simp only [recorded], tells⟩

theorem putAll_accepted (sink : τ) (chunks : List Bytes) :
    (ByteSink.putAll sink chunks).1.accepted <+: chunks.flatten ∧
      ((ByteSink.putAll sink chunks).1.failure = none →
        (ByteSink.putAll sink chunks).1.accepted = chunks.flatten) := by
  have front := ByteSink.putChunks_accepted sink chunks
  unfold ByteSink.putAll
  rcases whole : ByteSink.putChunks sink chunks with ⟨⟨accepted, _ | error⟩, t⟩ <;> rw [whole] at front
  · rcases flushed : ByteSink.flush t with ⟨error | _, u⟩ <;> simp only [flushed]
    · exact ⟨front.1, nofun⟩
    · exact ⟨front.1, fun _ => front.2 rfl⟩
  · exact front

end RecorderLemmas

namespace Writer

/-! ## Refusals -/

/-- What is not written: a preamble or a content that a boundary line could be read in, and a header
that takes more than one line. -/
def Refused (w : Writer) : Prop :=
  (∃ preamble, w.preamble = some preamble ∧
    (w.boundary.dashed <+: preamble ∨ w.boundary.delimiter <:+: preamble)) ∨
  (∃ part ∈ w.parts, w.boundary.delimiter <:+: part.content) ∨
  ∃ part ∈ w.parts, ∃ header ∈ part.headers.entries,
    ('\r' ∈ header.1.toList ∨ '\n' ∈ header.1.toList) ∨
      '\r' ∈ header.2.toList ∨ '\n' ∈ header.2.toList

/-- What whoever had a body written is told. -/
def report : Except Refusal Delivery → Except StreamError Unit
  | .error refusal => .error refusal.toStream
  | .ok ⟨_, some error⟩ => .error error
  | .ok ⟨_, none⟩ => .ok ()

section RefusalLemmas

variable {b : Boundary} {w : Writer}

theorem refusalOfPreamble_eq_none_iff {preamble : Bytes} : refusalOfPreamble b preamble = none ↔
    ¬ (b.dashed <+: preamble ∨ b.delimiter <:+: preamble) := by
  rw [refusalOfPreamble, ← occursIn_eq_true_iff, ← List.isPrefixOf_iff_prefix, ← Bool.or_eq_true]
  simp

theorem refusalOfPart_eq_none_iff_not {part : Part} : refusalOfPart b part = none ↔
    ¬ b.delimiter <:+: part.content ∧ ∀ header ∈ part.headers.entries,
      ¬ (('\r' ∈ header.1.toList ∨ '\n' ∈ header.1.toList) ∨
        '\r' ∈ header.2.toList ∨ '\n' ∈ header.2.toList) := by
  simp only [refusalOfPart_eq_none_iff, ← hasLineBreak_eq_true_iff, ← occursIn_eq_true_iff, not_or,
    Bool.not_eq_true]

/-- A body is refused for just these reasons, wherever in it they stand. -/
theorem refusal?_eq_none_iff : w.refusal? = none ↔ ¬ w.Refused := by
  simp only [refusal?, Option.or_eq_none_iff, List.findSome?_eq_none_iff,
    refusalOfPart_eq_none_iff_not, Option.bind_eq_none_iff, refusalOfPreamble_eq_none_iff, Refused,
    not_or, not_exists, not_and, forall_and]

end RefusalLemmas

/-! ## Writing -/

section WritingLemmas

variable {τ : Type} [ByteSink τ] {w : Writer}

/-- The calls that writing the body makes to a sink. -/
def calls (w : Writer) (sink : τ) : List SinkCall :=
  (w.writeTo (Recorder.mk sink [])).2.calls

theorem writeTo_accepted (accepted : w.refusal? = none) (sink : τ) :
    w.writeTo sink =
      (.ok (ByteSink.putAll sink w.chunks).1, (ByteSink.putAll sink w.chunks).2) := by
  simp [writeTo, accepted]

/-- A recorder is written to as its sink is. -/
theorem writeTo_recorded (w : Writer) (sink : τ) : w.writeTo (Recorder.mk sink []) =
    ((w.writeTo sink).1, ⟨(w.writeTo sink).2, w.calls sink⟩) := by
  rcases refused : w.refusal? with _ | refusal
  · obtain ⟨calls, recorded, -⟩ := putAll_recorded sink w.chunks
    simp only [Writer.calls, writeTo_accepted refused, recorded]
  · simp only [Writer.calls, writeTo_refused _ refused]

/-- What a delivery reports is its failure. -/
theorem report_eq_error_iff {d : Delivery} {error : StreamError} :
    report (.ok d) = .error error ↔ d.failure = some error := by
  rcases d with ⟨accepted, _ | other⟩ <;> simp [report]

theorem failure_of_report {d : Delivery} (done : report (.ok d) = .ok ()) : d.failure = none := by
  rcases d with ⟨accepted, _ | other⟩
  · rfl
  · cases done

/-- What becomes of a body that is not refused. -/
theorem writeTo_told (accepted : w.refusal? = none) (sink : τ) :
    ∃ d, (w.writeTo sink).1 = .ok d ∧ d.Tells (w.calls sink) ∧
      d.accepted <+: w.chunks.flatten ∧ (d.failure = none → d.accepted = w.chunks.flatten) := by
  obtain ⟨calls, recorded, tells⟩ := putAll_recorded sink w.chunks
  have noted : w.calls sink = calls := by
    simp only [Writer.calls, writeTo_accepted accepted, recorded, List.nil_append]
  rw [noted, writeTo_accepted accepted]
  exact ⟨_, rfl, tells, putAll_accepted sink w.chunks⟩

/-- A body is refused, with no call to the sink at all, just for the reasons in `Refused`. Any other is
given to the sink from its front on: whatever the sink takes and wherever it fails, it has a front of the
body, all of it unless an error is reported, and reported are the errors of calls that failed. -/
theorem writeTo_faithful (w : Writer) (sink : τ) :
    ((w.calls sink = [] ∧ ∃ error, report (w.writeTo sink).1 = .error error ∧
        error.kind = .invalidInput) ↔ w.Refused) ∧
    (¬ w.Refused → ∃ body, w.toBytes = .ok body ∧ takenBy (w.calls sink) <+: body ∧
      (report (w.writeTo sink).1 = .ok () → takenBy (w.calls sink) = body) ∧
      ∀ error, report (w.writeTo sink).1 = .error error ↔
        ∃ call ∈ w.calls sink, call.failure? = some error) := by
  have whole (accepted : ¬ w.Refused) : ∃ body, w.toBytes = .ok body ∧
      takenBy (w.calls sink) <+: body ∧
      (report (w.writeTo sink).1 = .ok () → takenBy (w.calls sink) = body) ∧
      ∀ error, report (w.writeTo sink).1 = .error error ↔
        ∃ call ∈ w.calls sink, call.failure? = some error := by
    have none := refusal?_eq_none_iff.2 accepted
    obtain ⟨d, delivered, tells, front, all⟩ := writeTo_told none sink
    rw [delivered, ← tells.accepted]
    refine ⟨_, toBytes_eq_ok_iff.2 ⟨none, rfl⟩, front, fun done => all (failure_of_report done), ?_⟩
    intro error
    rw [report_eq_error_iff, tells.failure]
  refine ⟨⟨fun ⟨silent, error, reported, _⟩ => ?_, fun refused => ?_⟩, whole⟩
  -- With no call at all there is none that failed, so only a refusal can be the reason of an error.
  · by_contra accepted
    obtain ⟨-, -, -, -, fails⟩ := whole accepted
    obtain ⟨call, there, -⟩ := (fails error).1 reported
    rw [silent] at there
    cases there
  · obtain ⟨refusal, found⟩ : ∃ refusal, w.refusal? = some refusal := by
      rw [← Option.ne_none_iff_exists', ne_eq, refusal?_eq_none_iff]
      exact not_not_intro refused
    simp only [Writer.calls, writeTo_refused _ found]
    exact ⟨trivial, _, rfl, rfl⟩

end WritingLemmas

/-- A sink that answers as it was told, and takes everything after that. -/
structure ScriptedSink where
  answers : List Acceptance

instance : ByteSink ScriptedSink where
  offer sink bytes :=
    match sink.answers with
    | [] => (.taken bytes.length, sink)
    | answer :: answers => (answer, ⟨answers⟩)
  flush sink := (.ok (), sink)
  patience sink _ := sink.answers.length
  patience_lt {sink _ _ _} offered _ := by
    obtain ⟨_ | ⟨answer, answers⟩⟩ := sink
    · cases offered
    · cases offered
      exact Nat.lt_succ_self _

/-- A sink that takes a line in two portions, is interrupted in between, and breaks then. -/
def sampleSink : ScriptedSink :=
  ⟨[.taken 3, .failed (.plain .interrupted), .taken 1, .taken 1, .failed (.plain .brokenPipe)]⟩

/-- A body with one part. -/
def sampleBody : Writer where
  boundary := ⟨"s", by decide +kernel⟩
  subtype := "mixed"
  preamble := none
  epilogue := none
  parts := [⟨⟨[("A", "1")]⟩, Utf8.encode "--s"⟩]

theorem writeTo_faithful_sample :
    takenBy (sampleBody.calls sampleSink) = Utf8.encode "--s\r\n" ∧
      (∃ body, sampleBody.toBytes = .ok body ∧ takenBy (sampleBody.calls sampleSink) <+: body) ∧
      report (sampleBody.writeTo sampleSink).1 = .error (.plain .brokenPipe) := by
  have made : sampleBody.calls sampleSink = [
      .offer (Utf8.encode "--s") (.taken 3), .offer Bytes.crlf (.failed (.plain .interrupted)),
      .offer Bytes.crlf (.taken 1), .offer [Bytes.lf] (.taken 1),
      .offer (Utf8.encode "A") (.failed (.plain .brokenPipe))] := by cbv
  obtain ⟨-, whole⟩ := writeTo_faithful sampleBody sampleSink
  obtain ⟨body, written, front, -, fails⟩ := whole (refusal?_eq_none_iff.1 (by decide +kernel))
  refine ⟨by rw [made]; decide +kernel, ⟨body, written, front⟩, (fails _).2 ?_⟩
  rw [made]
  decide +kernel

end Writer

end HttpForms.Multipart
