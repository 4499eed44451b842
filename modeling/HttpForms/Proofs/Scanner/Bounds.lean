import HttpForms.Proofs.Scanner.Guarded
import HttpForms.Proofs.Scanner.Portions
import HttpForms.Proofs.Scanner.Protocol

/-!
# A scanner stays inside of its buffer

Where a delimiter was found, how long the marker behind it is and how much of the buffer is safe are
numbers that one part of a scanner works out and another part uses, after more octets have left. The
scanner is written down here once more with every access to its buffer guarded: past the delimiter, past
the marker, past the end of headers, by what is safe and into the room of a reader. A guard that does
not hold leaves no answer at all. Beside the guards, one invariant is all that it takes to see that they
hold: the remembered place of the buffer lies inside.

Results:

1. `next_passes`, `readBody_passes` — one call passes its guards, gives the answer of the unguarded
   scanner, and keeps the remembered place inside;
2. `run?_eq` — so does any sequence of operations;
3. `guards_hold` — for a new scanner no guard ever fails, and no read gives more than there is room for.
-/

namespace HttpForms.Multipart.Scanner

/-! ## What frames the sections, guarded -/

/-- Goes on to another phase behind the first `n` octets. -/
def enter? (s : Scanner) (phase : Phase) (n : Nat) : Option Scanner :=
  (s.buffer.discard? n).map fun buffer => { s with phase := phase, buffer := buffer.restart }

/-- Takes `n` octets off the front and goes on to another phase behind `length` more of them. -/
def leave? (s : Scanner) (phase : Phase) (n length : Nat) : Option (Bytes × Scanner) :=
  (s.buffer.split? n).bind fun (front, rest) =>
    ({ s with buffer := rest }.enter? phase length).map fun t => (front, t)

/-- Reads the headers of a section. -/
def nextHeaders? (s : Scanner) : Option (Except Failure Step × Scanner) :=
  if Bytes.crlf.isPrefixOf s.buffer.bytes then
    (s.enter? .body Bytes.crlf.length).map fun t => (.ok (.opened .empty), t)
  else if s.buffer.bytes.length < Bytes.crlf.length then
    some (s.await .needInput .unterminatedHeaders)
  else
    (s.buffer.find? headerEnd).bind fun
    | (.found place, buffer) =>
      if s.headerLimit < place + headerEnd.length then
        some ({ s with buffer := buffer }.fail (.headersTooLarge s.headerLimit))
      else
        ({ s with buffer := buffer }.leave? .body place headerEnd.length).map fun (block, t) =>
          (.ok (.opened (Headers.parse s.charset block)), t)
    | (.absent _, buffer) =>
      if s.headerLimit < buffer.bytes.length then
        some ({ s with buffer := buffer }.fail (.headersTooLarge s.headerLimit))
      else some ({ s with buffer := buffer }.await .needInput .unterminatedHeaders)

/-- Reads the epilogue. -/
def nextEpilogue? (s : Scanner) (held : Bytes) : Option (Except Failure Step × Scanner) :=
  (s.buffer.split? s.buffer.bytes.length).bind fun (rest, buffer) =>
    if s.ended then
      ({ s with buffer := buffer }.enter? .done 0).map fun t => (.ok (.epilogue (held ++ rest)), t)
    else some (.ok .needInput, { s with phase := .epilogue (held ++ rest), buffer := buffer })

/-- Takes away the break after the closing boundary, if there is one, and reads the epilogue. -/
def nextClosed? (s : Scanner) : Option (Except Failure Step × Scanner) :=
  if s.buffer.bytes.length < Bytes.crlf.length && !s.ended then some (.ok .needInput, s)
  else
    let n := if Bytes.crlf.isPrefixOf s.buffer.bytes then Bytes.crlf.length else 0
    (s.enter? (.epilogue []) n).bind fun t => t.nextEpilogue? []

/-- Reads the marker behind the first `n` octets. -/
def markerBehind? (b : SearchBuffer) (n : Nat) : Option Marker :=
  (b.bytes.behind? n).bind Marker.classify?

/-- A delimiter that was found lies inside, and so does the marker behind it. -/
theorem markerBehind?_eq {b : SearchBuffer} {n : Nat} (inside : n ≤ b.bytes.length) :
    markerBehind? b n = some (Marker.classify (b.bytes.drop n)) := by
  rw [markerBehind?, Bytes.behind?_eq inside, Option.bind_some, Marker.classify?_eq]

/-- Looks for a boundary line and passes over all that only look like one. -/
def seekLine? (boundary : Boundary) (b : SearchBuffer) : Option (Candidate × SearchBuffer) :=
  match _search : b.find? boundary.delimiter with
  | none => none
  | some (.absent safe, b') => some (.absent safe, b')
  | some (.found place, b') =>
    match markerBehind? b' (place + boundary.delimiter.length) with
    | none => none
    | some .absent => seekLine? boundary (b'.reject place)
    | some .undecided => some (.undecided place, b')
    | some (.opens length) => some (.opens place (boundary.delimiter.length + length), b')
    | some .closes =>
      some (.closes place (boundary.delimiter.length + Marker.closing.length), b')
termination_by b.bytes.length - b.scanned
decreasing_by
  have solid := Boundary.delimiter_ne_nil (b := boundary)
  rw [SearchBuffer.find?_eq solid, Option.some.injEq] at _search
  have le := SearchBuffer.find_found_le _search solid
  obtain ⟨rfl, le', -⟩ := SearchBuffer.find_found _search
  have := List.length_pos_iff.2 solid
  simp only [SearchBuffer.reject]
  omega

/-- Reads the preamble up to the first boundary line. -/
def nextPreamble? (s : Scanner) (held : Bytes) : Option (Except Failure Step × Scanner) :=
  (seekLine? s.boundary s.buffer).bind fun
  | (.absent safe, buffer) =>
    (buffer.split? safe).map fun (released, buffer) =>
      { s with phase := .preamble (held ++ released), buffer := buffer }.await
        .needInput .unterminatedPreamble
  | (.undecided _, buffer) =>
    some ({ s with phase := .preamble held, buffer := buffer }.await .needInput .unterminatedPreamble)
  | (.opens place length, buffer) =>
    ({ s with buffer := buffer }.leave? .headers place length).map fun (front, t) =>
      (.ok (.preamble (held ++ front)), t)
  | (.closes place length, buffer) =>
    ({ s with buffer := buffer }.leave? .closed place length).map fun (front, t) =>
      (.ok (.preamble (held ++ front)), t)

/-- Goes on to the preamble. -/
def toPreamble? (s : Scanner) : Option (Except Failure Step × Scanner) :=
  (s.enter? (.preamble []) 0).bind fun t => t.nextPreamble? []

/-- Looks whether the body opens with a boundary. -/
def nextStart? (s : Scanner) : Option (Except Failure Step × Scanner) :=
  if s.buffer.bytes.length < s.boundary.dashed.length && !s.ended then some (.ok .needInput, s)
  else if !s.boundary.dashed.isPrefixOf s.buffer.bytes then s.toPreamble?
  else
    (markerBehind? s.buffer s.boundary.dashed.length).bind fun
    | .opens length =>
      (s.enter? .headers (s.boundary.dashed.length + length)).map fun t => (.ok (.preamble []), t)
    | .closes =>
      (s.enter? .closed (s.boundary.dashed.length + Marker.closing.length)).map fun t =>
        (.ok (.preamble []), t)
    | .undecided => some (s.await .needInput .unterminatedPreamble)
    | .absent => s.toPreamble?

/-! ## The content of sections, guarded -/

/-- Looks at the front of the buffer and takes a boundary line away that stands there. -/
def available? (s : Scanner) : Option (Except Failure Front × Scanner) :=
  (s.buffer.find? s.boundary.delimiter).bind fun
  | (.found 0, buffer) =>
    (markerBehind? buffer s.boundary.delimiter.length).bind fun
    | .opens length =>
      ({ s with buffer := buffer }.enter? .headers (s.boundary.delimiter.length + length)).map
        fun t => (.ok .opens, t)
    | .closes =>
      ({ s with buffer := buffer }.enter? .closed
        (s.boundary.delimiter.length + Marker.closing.length)).map fun t => (.ok .closes, t)
    | .undecided => some ({ s with buffer := buffer }.await .needInput .unterminatedBody)
    | .absent =>
      ((buffer.reject 0).find? s.boundary.delimiter).map fun (search, buffer) =>
        (.ok (.content search.reached), { s with buffer := buffer })
  | (.absent 0, buffer) => some ({ s with buffer := buffer }.await .needInput .unterminatedBody)
  | (search, buffer) => some (.ok (.content search.reached), { s with buffer := buffer })

section FrontLemmas

variable {s t : Scanner} {phase : Phase} {n place : Nat} {boundary : Boundary} {b b' : SearchBuffer}
  {needle : Bytes} {kind : LineKind}

theorem enter?_eq (inside : n ≤ s.buffer.bytes.length) :
    s.enter? phase n = some (s.enter phase n) := by
  rw [enter?, SearchBuffer.discard?_eq inside]
  rfl

/-- What was found lies inside. -/
theorem found_inside (found : b.find needle = (.found place, b')) (solid : needle ≠ []) :
    place + needle.length ≤ b'.bytes.length := by
  have le := SearchBuffer.find_found_le found solid
  obtain ⟨rfl, -, -⟩ := SearchBuffer.find_found found
  exact le

/-- A marker lies inside if it begins inside. -/
theorem marker_inside (inside : place ≤ b.bytes.length)
    (line : (Marker.classify (b.bytes.drop place)).line? = some (kind, n)) :
    place + n ≤ b.bytes.length := by
  have behind := Marker.length_le_of_line line
  rw [List.length_drop] at behind
  omega

/-- To look at the front of the buffer is safe wherever the search has come. -/
theorem available?_eq (s : Scanner) : s.available? = some s.available := by
  have solid := Boundary.delimiter_ne_nil (b := s.boundary)
  unfold available? available
  rw [SearchBuffer.find?_eq solid, Option.bind_some]
  rcases front : s.buffer.find s.boundary.delimiter with ⟨(_ | place) | (_ | safe), buffer⟩ <;>
    simp only
  · have inside := found_inside front solid
    rw [Nat.zero_add] at inside
    rw [markerBehind?_eq inside, Option.bind_some]
    rcases marker : Marker.classify (buffer.bytes.drop s.boundary.delimiter.length) with
      length | _ | _ | _ <;> simp only
    · rw [enter?_eq (marker_inside inside (by rw [marker]; rfl))]
      rfl
    · rw [enter?_eq (marker_inside inside (by rw [marker]; rfl))]
      rfl
    · rw [SearchBuffer.find?_eq solid]
      rfl

end FrontLemmas

/-- Passes over the rest of a section and goes on behind it. -/
def nextBody? (s : Scanner) : Option (Except Failure Step × Scanner) :=
  match _front : s.available? with
  | none => none
  | some (.ok (.content n), t) =>
    match _left : t.buffer.discard? n with
    | none => none
    | some buffer => nextBody? { t with buffer := buffer }
  | some (.ok .needInput, t) => some (.ok .needInput, t)
  | some (.ok .opens, t) => t.nextHeaders?
  | some (.ok .closes, t) => t.nextClosed?
  | some (.error failure, t) => some (.error failure, t)
termination_by s.buffer.bytes.length + s.buffer.scanned
decreasing_by
  rw [available?_eq, Option.some.injEq] at _front
  obtain ⟨positive, same, unsearched⟩ := available_content _front
  obtain ⟨-, rest⟩ := Option.ite_none_right_eq_some.1 _left
  obtain rfl := Option.some.inj rest
  simp only [SearchBuffer.discard, List.length_drop, same]
  by_cases none : s.buffer.bytes = []
  · have := unsearched none
    simp [none]
    omega
  · have := List.length_pos_iff.2 none
    omega

/-- The next step. -/
def next? (s : Scanner) : Option (Except Failure Step × Scanner) :=
  match s.phase with
  | .start => s.nextStart?
  | .preamble held => s.nextPreamble? held
  | .headers => s.nextHeaders?
  | .body => s.nextBody?
  | .closed => s.nextClosed?
  | .epilogue held => s.nextEpilogue? held
  | .done | .failed _ => some (.ok .done, s)

/-- Reads content of the section at hand, into room for so many octets. -/
def readBody? (s : Scanner) (room : Nat) : Option (Except Failure Portion × Scanner) :=
  match s.phase with
  | .failed cause => some (.error cause.replay, s)
  | .body =>
    s.available?.bind fun
    | (.ok (.content n), t) =>
      (t.buffer.deliver? n room).map fun (bytes, buffer) =>
        (.ok (.data bytes), { t with buffer := buffer })
    | (.ok .needInput, t) => some (.ok .needInput, t)
    | (.ok .opens, t) | (.ok .closes, t) => some (.ok .finished, t)
    | (.error failure, t) => some (.error failure, t)
  | _ => some (.ok .finished, s)

/-! ## Operations, guarded -/

/-- One operation. -/
def perform? (s : Scanner) : Operation → Option (Reply × Scanner)
  | .feed chunk => some (.taken, s.feed chunk)
  | .finish => some (.taken, s.finish)
  | .abort failure => some (.aborted (s.abort failure).1, (s.abort failure).2)
  | .next => s.next?.map fun (result, t) => (.step result, t)
  | .read room => (s.readBody? room).map fun (result, t) => (.portion result, t)

/-- A sequence of operations: their replies, and the scanner behind them. -/
def run? (s : Scanner) : List Operation → Option (List Reply × Scanner)
  | [] => some ([], s)
  | operation :: later =>
    (s.perform? operation).bind fun (reply, t) =>
      (t.run? later).map fun (replies, last) => (reply :: replies, last)

/-! ## The guards hold -/

/-- The search has not left the buffer. -/
def Within (s : Scanner) : Prop :=
  s.buffer.scanned ≤ s.buffer.bytes.length

/-- No guard of a call fails: it gives the answer it is to give, and the search stays inside. -/
def Passes {α : Type} (guarded : Option (α × Scanner)) (answer : α × Scanner) : Prop :=
  guarded = some answer ∧ answer.2.Within

section GuardLemmas

variable {s t : Scanner} {phase : Phase} {n place length : Nat} {held : Bytes} {boundary : Boundary}
  {b b' : SearchBuffer} {search : Search} {needle : Bytes}

/-- The search for a boundary line looks at one place, and goes on behind it if there is no line. -/
theorem seekLine?_step (boundary : Boundary) (b : SearchBuffer) :
    seekLine? boundary b =
      (b.find? boundary.delimiter).bind fun
      | (.absent safe, b') => some (.absent safe, b')
      | (.found place, b') =>
        (markerBehind? b' (place + boundary.delimiter.length)).bind fun
        | .absent => seekLine? boundary (b'.reject place)
        | .undecided => some (.undecided place, b')
        | .opens length => some (.opens place (boundary.delimiter.length + length), b')
        | .closes =>
          some (.closes place (boundary.delimiter.length + Marker.closing.length), b') := by
  rw [seekLine?]
  split
  · rename_i search
    rw [search]
    rfl
  · rename_i search
    rw [search]
    rfl
  · rename_i place b' search
    rw [search, Option.bind_some]
    rcases marker : markerBehind? b' (place + boundary.delimiter.length) with _ | _ | _ | _ | _ <;>
      simp only [marker, Option.bind_none, Option.bind_some]

theorem seekLine?_eq (boundary : Boundary) (b : SearchBuffer) :
    seekLine? boundary b = some (seekLine boundary b) := by
  have solid := Boundary.delimiter_ne_nil (b := boundary)
  fun_induction seekLine boundary b with
  | case1 b safe b' search =>
    rw [seekLine?_step, SearchBuffer.find?_eq solid, search]
    rfl
  | case2 b place b' search marker ih =>
    rw [seekLine?_step, SearchBuffer.find?_eq solid, search, Option.bind_some]
    simp only [markerBehind?_eq (found_inside search solid), marker, Option.bind_some]
    exact ih
  | case3 b place b' search marker =>
    rw [seekLine?_step, SearchBuffer.find?_eq solid, search, Option.bind_some]
    simp only [markerBehind?_eq (found_inside search solid), marker, Option.bind_some]
  | case4 b place b' search length marker =>
    rw [seekLine?_step, SearchBuffer.find?_eq solid, search, Option.bind_some]
    simp only [markerBehind?_eq (found_inside search solid), marker, Option.bind_some]
  | case5 b place b' search marker =>
    rw [seekLine?_step, SearchBuffer.find?_eq solid, search, Option.bind_some]
    simp only [markerBehind?_eq (found_inside search solid), marker, Option.bind_some]

/-- A search stays inside. -/
theorem within_find (result : b.find needle = (search, b')) (solid : needle ≠ [])
    (within : b.scanned ≤ b.bytes.length) :
    b'.scanned ≤ b'.bytes.length ∧ search.reached ≤ b'.bytes.length := by
  have le := SearchBuffer.reached_le result solid within
  obtain ⟨rfl, -⟩ := SearchBuffer.find_eq result
  exact ⟨le, le⟩

/-- It stays inside when octets leave at the front. -/
theorem within_discard (within : b.scanned ≤ b.bytes.length) (n : Nat) :
    (b.discard n).scanned ≤ (b.discard n).bytes.length := by
  rw [SearchBuffer.length_discard]
  exact Nat.sub_le_sub_right within n

theorem passes_await {α : Type} {more : α} {failure : Failure} (within : s.Within) :
    Passes (some (s.await more failure)) (s.await more failure) := by
  refine ⟨rfl, ?_⟩
  unfold await
  split <;> exact within

theorem passes_enter {α : Type} {answer : α} (inside : n ≤ s.buffer.bytes.length) :
    Passes ((s.enter? phase n).map fun t => (answer, t)) (answer, s.enter phase n) :=
  ⟨by rw [enter?_eq inside]; rfl, Nat.zero_le _⟩

/-- What is behind octets that were taken off the front is what is behind them in the whole. -/
theorem enter_split (n m : Nat) :
    ({ s with buffer := (s.buffer.split n).2 } : Scanner).enter phase m = s.enter phase (n + m) := by
  simp [enter, SearchBuffer.split, SearchBuffer.discard, SearchBuffer.restart, List.drop_drop]

theorem leave?_eq (inside : n + length ≤ s.buffer.bytes.length) :
    s.leave? phase n length = some ((s.buffer.split n).1, s.enter phase (n + length)) := by
  have le : length ≤ (s.buffer.split n).2.bytes.length := by
    show length ≤ (s.buffer.discard n).bytes.length
    rw [SearchBuffer.length_discard]
    omega
  rw [leave?, SearchBuffer.split?_eq (Nat.le_of_add_right_le inside), Option.bind_some,
    ← enter_split]
  show Option.map _ (enter? { s with buffer := (s.buffer.split n).2 } phase length) = _
  rw [enter?_eq]
  · rfl
  · exact le

theorem nextHeaders_passes (within : s.Within) : Passes s.nextHeaders? s.nextHeaders := by
  have solid : headerEnd ≠ [] := by decide
  unfold nextHeaders? nextHeaders
  by_cases blank : Bytes.crlf.isPrefixOf s.buffer.bytes
  · rw [if_pos blank, if_pos blank]
    exact passes_enter (List.isPrefixOf_iff_prefix.1 blank).length_le
  rw [if_neg blank, if_neg blank]
  by_cases short : s.buffer.bytes.length < Bytes.crlf.length
  · rw [if_pos short, if_pos short]
    exact passes_await within
  rw [if_neg short, if_neg short, SearchBuffer.find?_eq solid, Option.bind_some]
  rcases result : s.buffer.find headerEnd with ⟨place | safe, buffer⟩ <;> simp only
  · have inside := (within_find result solid within).1
    split
    · exact ⟨rfl, inside⟩
    · rw [leave?_eq]
      · exact ⟨rfl, Nat.zero_le _⟩
      · exact found_inside result solid
  · have inside := (within_find result solid within).1
    split
    · exact ⟨rfl, inside⟩
    · exact passes_await inside

theorem nextEpilogue_passes (within : s.Within) (held : Bytes) :
    Passes (s.nextEpilogue? held) (s.nextEpilogue held) := by
  unfold nextEpilogue? nextEpilogue
  rw [SearchBuffer.split?_eq (Nat.le_refl _), Option.bind_some]
  simp only
  split
  · exact passes_enter (Nat.zero_le _)
  · exact ⟨rfl, within_discard within _⟩

theorem nextClosed_passes (within : s.Within) : Passes s.nextClosed? s.nextClosed := by
  unfold nextClosed? nextClosed
  split
  · exact ⟨rfl, within⟩
  · simp only
    rw [enter?_eq, Option.bind_some]
    · exact nextEpilogue_passes (Nat.zero_le _) []
    · split
      · rename_i front
        exact (List.isPrefixOf_iff_prefix.1 front).length_le
      · exact Nat.zero_le _

/-- How far into the buffer a candidate reaches. -/
def Candidate.reach : Candidate → Nat
  | .absent place | .undecided place => place
  | .opens place length | .closes place length => place + length

/-- A candidate lies inside, and so does where the search for it has come to. -/
theorem seekLine_inside (boundary : Boundary) (within : b.scanned ≤ b.bytes.length) :
    (seekLine boundary b).2.scanned ≤ (seekLine boundary b).2.bytes.length ∧
      (seekLine boundary b).1.reach ≤ (seekLine boundary b).2.bytes.length := by
  have solid := Boundary.delimiter_ne_nil (b := boundary)
  fun_induction seekLine boundary b with
  | case1 b safe b' search => exact within_find search solid within
  | case2 b place b' search marker ih =>
    refine ih ?_
    have le := found_inside search solid
    have positive := Boundary.delimiter_pos boundary
    obtain ⟨rfl, -, -⟩ := SearchBuffer.find_found search
    simp only [SearchBuffer.reject] at le ⊢
    omega
  | case3 b place b' search marker => exact within_find search solid within
  | case4 b place b' search length marker =>
    have line := marker_inside (found_inside search solid) (by rw [marker]; rfl)
    rw [Nat.add_assoc] at line
    exact ⟨(within_find search solid within).1, line⟩
  | case5 b place b' search marker =>
    have line := marker_inside (found_inside search solid) (by rw [marker]; rfl)
    rw [Nat.add_assoc] at line
    exact ⟨(within_find search solid within).1, line⟩

theorem nextPreamble_passes (within : s.Within) (held : Bytes) :
    Passes (s.nextPreamble? held) (s.nextPreamble held) := by
  have inside := seekLine_inside s.boundary within
  unfold nextPreamble? nextPreamble
  rw [seekLine?_eq, Option.bind_some]
  generalize seekLine s.boundary s.buffer = candidate at inside ⊢
  rcases candidate with ⟨safe | _ | ⟨place, length⟩ | ⟨place, length⟩, buffer⟩ <;> simp only
  · rw [SearchBuffer.split?_eq]
    · exact passes_await (within_discard inside.1 safe)
    · exact inside.2
  · exact passes_await inside.1
  · rw [leave?_eq]
    · exact ⟨rfl, Nat.zero_le _⟩
    · exact inside.2
  · rw [leave?_eq]
    · exact ⟨rfl, Nat.zero_le _⟩
    · exact inside.2

theorem toPreamble_passes : Passes s.toPreamble? ((s.enter (.preamble []) 0).nextPreamble []) := by
  rw [toPreamble?, enter?_eq (Nat.zero_le _), Option.bind_some]
  exact nextPreamble_passes (Nat.zero_le _) []

theorem nextStart_passes (within : s.Within) : Passes s.nextStart? s.nextStart := by
  unfold nextStart? nextStart
  split
  · exact ⟨rfl, within⟩
  split
  · exact toPreamble_passes
  · rename_i front
    have le : s.boundary.dashed.length ≤ s.buffer.bytes.length :=
      (List.isPrefixOf_iff_prefix.1 (by simpa using front)).length_le
    rw [markerBehind?_eq le, Option.bind_some]
    rcases marker : Marker.classify (s.buffer.bytes.drop s.boundary.dashed.length) with
      length | _ | _ | _ <;> simp only
    · exact passes_enter (marker_inside le (by rw [marker]; rfl))
    · exact passes_enter (marker_inside le (by rw [marker]; rfl))
    · exact passes_await within
    · exact toPreamble_passes

/-- What looking at the front of the buffer says lies inside. -/
def StandsInside : Except Failure Front × Scanner → Prop
  | (.ok (.content n), t) => t.Within ∧ n ≤ t.buffer.bytes.length
  | (_, t) => t.Within

theorem available_inside (within : s.Within) : StandsInside s.available := by
  have solid := Boundary.delimiter_ne_nil (b := s.boundary)
  have waits {buffer : SearchBuffer} (within : buffer.scanned ≤ buffer.bytes.length) :
      StandsInside (await { s with buffer := buffer } .needInput .unterminatedBody) := by
    unfold await
    split <;> exact within
  unfold available
  rcases front : s.buffer.find s.boundary.delimiter with ⟨(_ | place) | (_ | safe), buffer⟩ <;>
    simp only
  · rcases Marker.classify (buffer.bytes.drop s.boundary.delimiter.length) with
      length | _ | _ | _ <;> simp only
    · exact Nat.zero_le _
    · exact Nat.zero_le _
    · exact waits (within_find front solid within).1
    · have le := found_inside front solid
      have positive := Boundary.delimiter_pos s.boundary
      obtain ⟨rfl, -, -⟩ := SearchBuffer.find_found front
      exact within_find rfl solid (by simp only [SearchBuffer.reject] at le ⊢; omega)
  · exact within_find front solid within
  · exact waits (within_find front solid within).1
  · exact within_find front solid within

/-- Passing over a section goes by what is at the front of the buffer. -/
theorem nextBody?_step (s : Scanner) :
    s.nextBody? =
      match s.available with
      | (.ok (.content n), t) =>
        (t.buffer.discard? n).bind fun buffer => nextBody? { t with buffer := buffer }
      | (.ok .needInput, t) => some (.ok .needInput, t)
      | (.ok .opens, t) => t.nextHeaders?
      | (.ok .closes, t) => t.nextClosed?
      | (.error failure, t) => some (.error failure, t) := by
  rw [nextBody?]
  have look := available?_eq s
  split <;> rename_i front <;> rw [front] at look
  · cases look
  · rename_i n t
    rw [← Option.some.inj look]
    simp only
    split <;> rename_i left <;> rw [left] <;> rfl
  all_goals rw [← Option.some.inj look]

theorem nextBody_passes (within : s.Within) : Passes s.nextBody? s.nextBody := by
  fun_induction nextBody s with
  | case1 s n t front ih =>
    have inside := available_inside within
    rw [front] at inside
    rw [nextBody?_step, front]
    simp only
    rw [SearchBuffer.discard?_eq inside.2, Option.bind_some]
    exact ih (within_discard inside.1 n)
  | case2 s t front =>
    have inside := available_inside within
    rw [front] at inside
    rw [nextBody?_step, front]
    exact ⟨rfl, inside⟩
  | case3 s t front =>
    have inside := available_inside within
    rw [front] at inside
    rw [nextBody?_step, front]
    exact nextHeaders_passes inside
  | case4 s t front =>
    have inside := available_inside within
    rw [front] at inside
    rw [nextBody?_step, front]
    exact nextClosed_passes inside
  | case5 s failure t front =>
    have inside := available_inside within
    rw [front] at inside
    rw [nextBody?_step, front]
    exact ⟨rfl, inside⟩

/-- A step passes its guards, wherever the scanner is. -/
theorem next_passes (within : s.Within) : Passes s.next? s.next := by
  unfold next? next
  cases s.phase with
  | start => exact nextStart_passes within
  | preamble held => exact nextPreamble_passes within held
  | headers => exact nextHeaders_passes within
  | body => exact nextBody_passes within
  | closed => exact nextClosed_passes within
  | epilogue held => exact nextEpilogue_passes within held
  | done | failed cause => exact ⟨rfl, within⟩

/-- So does reading, whatever the room. -/
theorem readBody_passes (within : s.Within) (room : Nat) :
    Passes (s.readBody? room) (s.readBody room) := by
  unfold readBody? readBody
  cases s.phase with
  | failed cause => exact ⟨rfl, within⟩
  | body =>
    have inside := available_inside within
    simp only [available?_eq, Option.bind_some]
    generalize s.available = looked at inside ⊢
    rcases looked with ⟨failure | _ | n | _ | _, t⟩
    · exact ⟨rfl, inside⟩
    · exact ⟨rfl, inside⟩
    · simp only
      rw [SearchBuffer.deliver?_eq inside.1]
      exact ⟨rfl, within_discard inside.1 _⟩
    · exact ⟨rfl, inside⟩
    · exact ⟨rfl, inside⟩
  | start | preamble held | headers | closed | epilogue held | done => exact ⟨rfl, within⟩

/-- No more is read than there is room for. -/
theorem length_le_room {bytes : Bytes} {room : Nat}
    (read : s.readBody room = (.ok (.data bytes), t)) : bytes.length ≤ room := by
  obtain ⟨-, n, u, -, rfl, -⟩ := content_of_readBody read
  rw [List.length_take]
  omega

/-! ## Operations -/

theorem perform_passes (within : s.Within) (operation : Operation) :
    Passes (s.perform? operation) (s.perform operation) := by
  cases operation with
  | feed chunk =>
    refine ⟨rfl, ?_⟩
    show (s.feed chunk).Within
    unfold feed
    split
    · exact within
    · show s.buffer.scanned ≤ (s.buffer.bytes ++ chunk).length
      rw [List.length_append]
      exact Nat.le_add_right_of_le within
  | finish => exact ⟨rfl, within⟩
  | abort failure => exact ⟨rfl, within⟩
  | next =>
    obtain ⟨same, inside⟩ := next_passes within
    exact ⟨by rw [perform?, same]; rfl, inside⟩
  | read room =>
    obtain ⟨same, inside⟩ := readBody_passes within room
    exact ⟨by rw [perform?, same]; rfl, inside⟩

/-- No operation of a sequence fails a guard, and the search stays inside. -/
theorem run?_eq (within : s.Within) (operations : List Operation) :
    s.run? operations = some (s.replies operations, s.after operations) ∧
      (s.after operations).Within := by
  induction operations generalizing s with
  | nil => exact ⟨rfl, within⟩
  | cons operation later ih =>
    obtain ⟨same, inside⟩ := perform_passes within operation
    obtain ⟨onward, last⟩ := ih inside
    refine ⟨?_, last⟩
    rw [run?, same, Option.bind_some]
    simp only [onward]
    rfl

end GuardLemmas

/-- Whatever is done with a scanner, every access to its buffer lies inside, the remembered place of the
buffer stays inside, and no read gives more than there is room for. -/
theorem guards_hold (boundary : Boundary) (charset : Charset) (limits : Limits)
    (operations : List Operation) :
    (new boundary charset limits).run? operations =
        some ((new boundary charset limits).replies operations,
          (new boundary charset limits).after operations) ∧
      ((new boundary charset limits).after operations).buffer.scanned ≤
        ((new boundary charset limits).after operations).buffer.bytes.length ∧
      ∀ room bytes,
        (((new boundary charset limits).after operations).readBody room).1 = .ok (.data bytes) →
          bytes.length ≤ room := by
  obtain ⟨same, within⟩ := run?_eq (s := new boundary charset limits) (Nat.le_refl 0) operations
  exact ⟨same, within, fun room bytes read => length_le_room (Prod.ext read rfl)⟩

end HttpForms.Multipart.Scanner
