import HttpForms.Multipart.Form
import HttpForms.Proofs.Reader.PlainScripts
import Mathlib.Data.List.Forall2

/-!
# Blocking and polled readers agree

A polled reader is polled with buffers of any sizes, and its source may have nothing yet at any time
and any number of times. What it tells of a body is what a blocking reader tells of the script without
these times: the same events, contents and failures, and as many octets that were never read.

Results:

1. `transcript_lift` — readers that agree on events and visits agree on the record of a whole body;
2. `polled_agrees` — the record and the form that a polled reader makes are those of a blocking one.
-/

namespace HttpForms.Multipart

/-! ## Polled plans -/

namespace Reader

variable {σ : Type} [ByteSource σ]

/-- Draining leaves no more than there was. -/
theorem drainBy_remaining (mode : Mode) (rooms : Rooms) (r : Reader σ) :
    (r.drainBy mode rooms).2.remaining ≤ r.remaining := by
  fun_induction drainBy mode rooms r with
  | case1 rooms r t polled ih =>
    have polls := poll_remaining mode r (rooms 0).size
    rw [polled] at polls
    exact Nat.le_trans ih (Nat.le_of_lt polls)
  | case2 rooms r t polled =>
    have polls := poll_remaining mode r (rooms 0).size
    rw [polled] at polls
    exact Nat.le_trans (Nat.le_add_left _ _) polls
  | case3 rooms r b bytes t polled rest u drained ih =>
    have polls := poll_remaining mode r (rooms 0).size
    rw [polled] at polls
    rw [drained] at ih
    exact Nat.le_trans ih (Nat.le_trans (Nat.le_add_left _ _) polls)
  | case4 rooms r failure t polled =>
    have polls := poll_remaining mode r (rooms 0).size
    rw [polled] at polls
    exact Nat.le_trans (Nat.le_add_left _ _) polls

/-- All that is left of the section, polled for with buffers of these sizes. -/
def readAllBy (rooms : Rooms) (r : Reader σ) : Except Failure Bytes × Reader σ :=
  let (content, t) := r.drainBy .polled rooms
  match content.failure with
  | none => (.ok content.bytes, t)
  | some failure => (.error (Mode.polled.report failure), t)

/-- The octets that the stream of the section gives up to its end, polled for with buffers of these
sizes. -/
def readToEndBy (rooms : Rooms) (r : Reader σ) : (Bytes × Except StreamError Nat) × Reader σ :=
  let (content, t) := r.drainBy .polled rooms
  match content.failure with
  | none => ((content.bytes, .ok content.bytes.length), t)
  | some failure => ((content.bytes, .error failure.toStream), t)

theorem readAllBy_snd (rooms : Rooms) (r : Reader σ) :
    (r.readAllBy rooms).2 = (r.drainBy .polled rooms).2 := by
  unfold readAllBy
  rcases r.drainBy .polled rooms with ⟨⟨bytes, _ | _⟩, t⟩ <;> rfl

theorem readToEndBy_snd (rooms : Rooms) (r : Reader σ) :
    (r.readToEndBy rooms).2 = (r.drainBy .polled rooms).2 := by
  unfold readToEndBy
  rcases r.drainBy .polled rooms with ⟨⟨bytes, _ | _⟩, t⟩ <;> rfl

theorem readAllBy_eq {r : Reader σ} (searched : r.Searched) (rooms : Rooms) :
    r.readAllBy rooms = r.readAll .polled := by
  have same : r.drainBy .polled rooms = r.drain .polled := drainBy_eq_drain searched rooms
  rcases drained : r.drain .polled with ⟨⟨bytes, _ | failure⟩, t⟩ <;> rw [drained] at same
  · simp only [readAllBy, readAll, same, drained]
  · simp only [readAllBy, readAll, same, drained]

theorem readToEndBy_eq {r : Reader σ} (searched : r.Searched) (rooms : Rooms) :
    r.readToEndBy rooms = r.readToEnd .polled := by
  have same : r.drainBy .polled rooms = r.drain .polled := drainBy_eq_drain searched rooms
  rcases drained : r.drain .polled with ⟨⟨bytes, _ | failure⟩, t⟩ <;> rw [drained] at same
  · simp only [readToEndBy, readToEnd, same, drained]
  · simp only [readToEndBy, readToEnd, same, drained]

end Reader

/-- Something that is done with a section that is polled, and the sizes of the buffers for it. -/
inductive PolledAction
  | all (rooms : Rooms)
  | text (rooms : Rooms)
  /-- Reads once, at most so many octets. -/
  | portion (room : Nat)
  | toEnd (rooms : Rooms)
  /-- Passes over the rest. The section is given up, so nothing follows. -/
  | skip (rooms : Rooms)

namespace PolledAction

/-- The action, whatever the sizes are. -/
def erase : PolledAction → Action
  | .all _ => .all
  | .text _ => .text
  | .portion room => .portion room
  | .toEnd _ => .toEnd
  | .skip _ => .skip

/-- The visitor that does the action. -/
def visitor : PolledAction → Visitor
  | .all rooms =>
    { visit _ r :=
        let (result, t) := r.readAllBy rooms
        ([.all result], t)
      remaining_le _ r := by
        simp only [Reader.readAllBy_snd]
        exact Reader.drainBy_remaining .polled rooms r }
  | .text rooms =>
    { visit _ r :=
        let (result, t) := r.readAllBy rooms
        ([.text (result.map r.charset.decode)], t)
      remaining_le _ r := by
        simp only [Reader.readAllBy_snd]
        exact Reader.drainBy_remaining .polled rooms r }
  | .portion room => .portion .polled room
  | .toEnd rooms =>
    { visit _ r :=
        let ((bytes, result), t) := r.readToEndBy rooms
        ([.toEnd bytes result], t)
      remaining_le _ r := by
        simp only [Reader.readToEndBy_snd]
        exact Reader.drainBy_remaining .polled rooms r }
  | .skip rooms =>
    { visit _ r :=
        let (result, t) := r.readAllBy rooms
        ([.skipped (result.map fun _ => ())], t)
      remaining_le _ r := by
        simp only [Reader.readAllBy_snd]
        exact Reader.drainBy_remaining .polled rooms r }

/-- The visitor that does one action after the other, up to the one that gives the section up. -/
def sequence : List PolledAction → Visitor
  | [] => .ignore
  | action :: rest =>
    if action.erase.isLast then action.visitor else action.visitor.followedBy (sequence rest)

end PolledAction

/-- The actions for each section in turn, with the sizes of the buffers. -/
abbrev PolledPlan := List (List PolledAction)

namespace PolledPlan

/-- The plan, whatever the sizes are. -/
def erase (plan : PolledPlan) : Plan :=
  plan.map fun actions => actions.map PolledAction.erase

/-- The record of a body that is polled by a plan, and the reader behind it. -/
def run {σ : Type} [ByteSource σ] (plan : PolledPlan) (r : Reader σ) : List Entry × Reader σ :=
  r.transcript .polled (.ofList .polled (plan.map PolledAction.sequence)) timesOver

end PolledPlan

/-! ## Records -/

/-- Wherever the statement holds of a reader, the second visitor does with the image of the reader
what the first one does with the reader, and the statement still holds. -/
def Visitor.Matches (f : Reader Script → Reader Script) (P : Reader Script → Prop) (v w : Visitor) :
    Prop :=
  ∀ headers r, P r → w.visit headers (f r) = ((v.visit headers r).1, f (v.visit headers r).2) ∧
    P (v.visit headers r).2

/-- The visitors match one by one. -/
structure Visitors.Match (f : Reader Script → Reader Script) (P : Reader Script → Prop)
    (vs ws : Visitors) : Prop where
  first : vs.first.Matches f P ws.first
  later : List.Forall₂ (Visitor.Matches f P) vs.later ws.later

section LiftLemmas

variable {f : Reader Script → Reader Script} {P : Reader Script → Prop} {v w v' w' : Visitor}
  {vs ws : Visitors} {mode mode' : Mode} {r : Reader Script}

theorem Visitors.Match.next (matches_ : vs.Match f P ws) : vs.next.Match f P ws.next := by
  obtain ⟨first, later⟩ := vs
  obtain ⟨first', later'⟩ := ws
  obtain ⟨front, behind⟩ := matches_
  cases behind with
  | nil => exact ⟨front, .nil⟩
  | cons front' behind' => exact ⟨front', behind'⟩

theorem Visitor.Matches.followedBy (first : v.Matches f P w) (second : v'.Matches f P w') :
    (v.followedBy v').Matches f P (w.followedBy w') := by
  intro headers r holds
  obtain ⟨same, onward⟩ := first headers r holds
  obtain ⟨same', onward'⟩ := second headers _ onward
  refine ⟨?_, onward'⟩
  simp only [Visitor.followedBy, same, same']

/-- Readers that agree on events and visits agree on the record of a whole body. -/
theorem Reader.transcript_lift
    (events : ∀ r, P r → (f r).nextEvent mode' = ((r.nextEvent mode).1, f (r.nextEvent mode).2) ∧
      P (r.nextEvent mode).2)
    (matches_ : vs.Match f P ws) (times : Nat) (holds : P r) :
    (f r).transcript mode' ws times =
      ((r.transcript mode vs times).1, f (r.transcript mode vs times).2) := by
  fun_induction Reader.transcript mode vs times r generalizing ws with
  | case1 => rw [Reader.transcript]
  | case4 vs r times headers t event visited entries u rest =>
    rename_i ih
    obtain ⟨same, onward⟩ := events r holds
    rw [event] at same onward
    obtain ⟨visit, later⟩ := matches_.first headers t onward
    have behind := ih matches_.next later
    rw [rest] at behind
    rw [transcript_step, same]
    simp only [visit, show Reader.transcript mode' ws.next (times + 1)
      (f (vs.first.visit headers t).2) = (entries, f u) from behind]
    rfl
  | case2 vs r times bytes t event entries u rest ih
  | case3 vs r times bytes t event entries u rest ih
  | case5 vs r times t event entries u rest ih
  | case6 vs r times failure t event entries u rest ih =>
    obtain ⟨same, onward⟩ := events r holds
    rw [event] at same onward
    have behind := ih matches_ onward
    rw [rest] at behind
    rw [transcript_step, same]
    simp only [behind]

end LiftLemmas

/-! ## Sizes of buffers make no difference -/

section SizeLemmas

variable {r : Reader Script}

/-- With buffers of any sizes an action does what it does with buffers of the usual size. -/
theorem PolledAction.visitor_matches (action : PolledAction) :
    action.visitor.Matches id Reader.Searched (Action.visitor .polled action.erase) := by
  intro headers r searched
  have kept := (Reader.kept_searched (σ := Script)).poll .polled
  have same : action.visitor.visit headers r = (Action.visitor .polled action.erase).visit headers r := by
    cases action with
    | all rooms | text rooms | skip rooms =>
      simp only [visitor, erase, Action.visitor, Visitor.all, Visitor.text, Visitor.skip,
        Reader.readText, Reader.skip, Reader.readAllBy_eq searched]
    | toEnd rooms =>
      simp only [visitor, erase, Action.visitor, Visitor.toEnd, Reader.readToEndBy_eq searched]
    | portion room => rfl
  refine ⟨by rw [same]; rfl, ?_⟩
  rw [same]
  exact (Action.keeps_visitor .polled action.erase).visit kept headers r searched

theorem Visitor.ignore_matches {f : Reader Script → Reader Script} {P : Reader Script → Prop} :
    Visitor.ignore.Matches f P .ignore :=
  fun _ _ holds => ⟨rfl, holds⟩

theorem PolledAction.sequence_matches : ∀ actions : List PolledAction,
    (sequence actions).Matches id Reader.Searched (Action.sequence .polled (actions.map erase))
  | [] => Visitor.ignore_matches
  | action :: rest => by
    rw [sequence, List.map_cons, Action.sequence]
    split
    · exact action.visitor_matches
    · exact action.visitor_matches.followedBy (sequence_matches rest)

end SizeLemmas

/-! ## Waiting makes no difference -/

section CoreLemmas

variable {r : Reader Script} {mode : Mode}

theorem Visitor.all_matches : (Visitor.all mode).Matches Reader.core Reader.Plain (.all .blocking) := by
  intro headers r plain
  refine ⟨?_, Visitor.keeps_all.visit (Reader.kept_plain.poll mode) headers r plain⟩
  simp only [Visitor.all, Reader.readAll_core mode plain]

theorem Visitor.text_matches :
    (Visitor.text mode).Matches Reader.core Reader.Plain (.text .blocking) := by
  intro headers r plain
  refine ⟨?_, Visitor.keeps_text.visit (Reader.kept_plain.poll mode) headers r plain⟩
  simp only [Visitor.text, Reader.readText, Reader.readAll_core mode plain]
  rfl

theorem Visitor.portion_matches (room : Nat) :
    (Visitor.portion mode room).Matches Reader.core Reader.Plain (.portion .blocking room) := by
  intro headers r plain
  refine ⟨?_, (Visitor.keeps_portion room).visit (Reader.kept_plain.poll mode) headers r plain⟩
  simp only [Visitor.portion, Reader.readSome, Reader.read_core mode]

theorem Visitor.toEnd_matches :
    (Visitor.toEnd mode).Matches Reader.core Reader.Plain (.toEnd .blocking) := by
  intro headers r plain
  refine ⟨?_, Visitor.keeps_toEnd.visit (Reader.kept_plain.poll mode) headers r plain⟩
  simp only [Visitor.toEnd, Reader.readToEnd_core mode]

theorem Visitor.skip_matches :
    (Visitor.skip mode).Matches Reader.core Reader.Plain (.skip .blocking) := by
  intro headers r plain
  refine ⟨?_, Visitor.keeps_skip.visit (Reader.kept_plain.poll mode) headers r plain⟩
  simp only [Visitor.skip, Reader.skip, Reader.readAll_core mode plain]

/-- In whatever mode an action is done, it does what it does blocking with the core. -/
theorem PolledAction.erase_matches (mode : Mode) (action : PolledAction) :
    (Action.visitor mode action.erase).Matches Reader.core Reader.Plain
      (Action.visitor .blocking action.erase) := by
  cases action with
  | all rooms => exact Visitor.all_matches
  | text rooms => exact Visitor.text_matches
  | portion room => exact Visitor.portion_matches room
  | toEnd rooms => exact Visitor.toEnd_matches
  | skip rooms => exact Visitor.skip_matches

theorem PolledAction.sequence_erase_matches (mode : Mode) : ∀ actions : List PolledAction,
    (Action.sequence mode (actions.map erase)).Matches Reader.core Reader.Plain
      (Action.sequence .blocking (actions.map erase))
  | [] => Visitor.ignore_matches
  | action :: rest => by
    rw [List.map_cons, Action.sequence, Action.sequence]
    split
    · exact action.erase_matches mode
    · exact (action.erase_matches mode).followedBy (sequence_erase_matches mode rest)

end CoreLemmas

/-! ## Plans -/

namespace PolledPlan

variable {r : Reader Script} {mode : Mode}

theorem visitors_erase (mode : Mode) (plan : PolledPlan) :
    Action.visitors mode plan.erase =
      plan.map fun actions => Action.sequence mode (actions.map PolledAction.erase) := by
  induction plan with
  | nil => rfl
  | cons actions plan ih => exact congrArg (_ :: ·) ih

theorem match_ofList {f : Reader Script → Reader Script} {P : Reader Script → Prop} {mode' : Mode}
    {left right : List PolledAction → Visitor} (all : (Visitor.all mode).Matches f P (.all mode'))
    (each : ∀ actions, (left actions).Matches f P (right actions)) (plan : PolledPlan) :
    (Visitors.ofList mode (plan.map left)).Match f P (.ofList mode' (plan.map right)) := by
  cases plan with
  | nil => exact ⟨all, .nil⟩
  | cons actions plan =>
    refine ⟨each actions, ?_⟩
    show List.Forall₂ _ (plan.map left) (plan.map right)
    rw [List.forall₂_map_left_iff, List.forall₂_map_right_iff, List.forall₂_same]
    exact fun actions _ => each actions

/-- The sizes of the buffers make no difference to the record, and none to the reader behind it. -/
theorem run_eq (searched : r.Searched) (plan : PolledPlan) : plan.run r = plan.erase.run .polled r := by
  have kept := Reader.kept_searched (σ := Script)
  have events (r : Reader Script) (searched : r.Searched) :
      (id r).nextEvent .polled = ((r.nextEvent .polled).1, id (r.nextEvent .polled).2) ∧
        (r.nextEvent .polled).2.Searched :=
    ⟨rfl, kept.nextEvent .polled searched⟩
  have all : (Visitor.all .polled).Matches id Reader.Searched (.all .polled) :=
    fun headers r searched => ⟨rfl, Visitor.keeps_all.visit (kept.poll .polled) headers r searched⟩
  have each := match_ofList all PolledAction.sequence_matches plan
  rw [run, Plan.run, visitors_erase]
  exact (Reader.transcript_lift events each timesOver searched).symm

/-- What a plan makes of a body, in whatever mode, a blocking reader of the core makes of it. -/
theorem run_core (mode : Mode) (plain : r.Plain) (plan : PolledPlan) :
    plan.erase.run .blocking r.core =
      ((plan.erase.run mode r).1, (plan.erase.run mode r).2.core) := by
  rw [Plan.run, Plan.run, visitors_erase, visitors_erase]
  exact Reader.transcript_lift
    (fun r plain => ⟨Reader.nextEvent_core mode r, Reader.kept_plain.nextEvent mode plain⟩)
    (match_ofList Visitor.all_matches (PolledAction.sequence_erase_matches mode) plan)
    timesOver plain

end PolledPlan

/-! ## Forms -/

namespace Reader

variable {σ : Type} [ByteSource σ]

/-- All sections of a body that is polled to its end, with buffers of these sizes for each, or the
first failure. -/
def partsBy (sizes : Nat → Rooms) (r : Reader σ) : Except Failure (List Part) :=
  match _event : r.nextEvent .polled with
  | (.ok none, _) => .ok []
  | (.ok (some (.opened headers)), t) =>
    match _content : t.readAllBy (sizes 0) with
    | (.ok content, u) => (partsBy (fun n => sizes (n + 1)) u).map (⟨headers, content⟩ :: ·)
    | (.error failure, _) => .error failure
  | (.ok (some (.preamble _)), t) | (.ok (some (.epilogue _)), t) => partsBy sizes t
  | (.error failure, _) => .error failure
termination_by r.size
decreasing_by
  all_goals
    have delivers := nextEvent_delivers .polled r
    rw [_event] at delivers
    have lt := delivers.1
  · have le := drainBy_remaining .polled (sizes 0) t
    rw [← readAllBy_snd, _content] at le
    have le : u.remaining ≤ t.remaining := le
    have total := size_eq u
    split at total <;> omega
  · exact lt
  · exact lt

/-- The form that a body holds, polled for with buffers of these sizes. -/
def formBy (sizes : Nat → Rooms) (r : Reader σ) : Except Failure Form :=
  (r.partsBy sizes).map (Form.ofParts r.charset)

section FormLemmas

variable {r : Reader Script} {mode : Mode}

/-- The sizes of the buffers make no difference to the parts. -/
theorem partsBy_eq (sizes : Nat → Rooms) {r : Reader σ} (searched : r.Searched) :
    r.partsBy sizes = r.parts .polled := by
  have kept := kept_searched (σ := σ)
  fun_induction partsBy sizes r with
  | case1 sizes r t event => rw [parts_step, event]
  | case2 sizes r headers t event content u read ih =>
    have onward := kept.nextEvent .polled searched
    rw [event] at onward
    have behind := (kept.poll .polled).drain onward
    rw [← readAll_snd, ← readAllBy_eq onward (sizes 0), read] at behind
    rw [parts_step, event]
    simp only [← readAllBy_eq onward (sizes 0), read]
    rw [ih behind]
  | case3 sizes r headers t event failure u read =>
    have onward := kept.nextEvent .polled searched
    rw [event] at onward
    rw [parts_step, event]
    simp only [← readAllBy_eq onward (sizes 0), read]
  | case4 sizes r bytes t event ih | case5 sizes r bytes t event ih =>
    have onward := kept.nextEvent .polled searched
    rw [event] at onward
    rw [parts_step, event]
    exact ih onward
  | case6 sizes r failure t event => rw [parts_step, event]

/-- The parts of a body, in whatever mode, are those that a blocking reader of the core reads. -/
theorem parts_core (mode : Mode) (plain : r.Plain) : r.core.parts .blocking = r.parts mode := by
  fun_induction parts mode r with
  | case1 r t event => rw [parts_step, nextEvent_core mode, event]
  | case2 r headers t event content u read ih =>
    have onward := kept_plain.nextEvent mode plain
    rw [event] at onward
    have behind := (kept_plain.poll mode).drain onward
    rw [← readAll_snd, read] at behind
    rw [parts_step, nextEvent_core mode, event]
    simp only [readAll_core mode onward, read]
    rw [ih behind]
  | case3 r headers t event failure u read =>
    have onward := kept_plain.nextEvent mode plain
    rw [event] at onward
    rw [parts_step, nextEvent_core mode, event]
    simp only [readAll_core mode onward, read]
  | case4 r bytes t event ih | case5 r bytes t event ih =>
    have onward := kept_plain.nextEvent mode plain
    rw [event] at onward
    rw [parts_step, nextEvent_core mode, event]
    exact ih onward
  | case6 r failure t event => rw [parts_step, nextEvent_core mode, event]

end FormLemmas

end Reader

/-! ## Both readers -/

/-- What is told of a body, and how many octets of its script were never read. -/
def account (run : List Entry × Reader Script) : List Entry × Nat :=
  (run.1, run.2.source.unread)

namespace Reader

variable {script : Script}

theorem plain_prompt (plain : script.Plain) : script.prompt.Plain :=
  fun kind failure there => plain kind failure (List.mem_filter.1 there).1

theorem account_core (run : List Entry × Reader Script) :
    account (run.1, run.2.core) = account run :=
  congrArg (Prod.mk run.1) (Script.unread_core run.2.source)

/-- A polled reader tells of a script what a blocking reader tells of it without the times when there
was nothing yet. -/
theorem account_eq {r r' : Reader Script} (searched : r.Searched) (plain : r.Plain)
    (plain' : r'.Plain) (same : r'.core = r.core) (plan : PolledPlan) :
    account (plan.run r) = account (plan.erase.run .blocking r') ∧
      account (plan.erase.run .polled r) = account (plan.erase.run .blocking r') := by
  have polled := account_core (plan.erase.run .polled r)
  have blocking := account_core (plan.erase.run .blocking r')
  rw [← PolledPlan.run_core .polled plain] at polled
  rw [← PolledPlan.run_core .blocking plain', same] at blocking
  have agree := polled.symm.trans blocking
  exact ⟨by rw [plan.run_eq searched, agree], agree⟩

theorem form_eq {r r' : Reader Script} (searched : r.Searched) (plain : r.Plain)
    (plain' : r'.Plain) (same : r'.core = r.core) (sizes : Nat → Rooms) :
    r.formBy sizes = r'.form .blocking ∧ r.form .polled = r'.form .blocking := by
  have charset : r.charset = r'.charset := by
    show r.core.charset = r'.core.charset
    rw [same]
  have agree : r.form .polled = r'.form .blocking := by
    rw [form, form, ← parts_core .polled plain, ← parts_core .blocking plain', same, charset]
  refine ⟨?_, agree⟩
  rw [formBy, partsBy_eq sizes searched]
  exact agree

section NewLemmas

variable {α : Type} {charset : Charset} {limits : Limits}

/-- What agrees for all boundaries agrees for all texts of one. -/
theorem new_map_eq {f g : Reader Script → α}
    (agree : ∀ boundary, f (opened script boundary charset limits) =
      g (opened script.prompt boundary charset limits)) (text : String) :
    (new script text charset limits).map f = (new script.prompt text charset limits).map g := by
  rw [new_eq, new_eq]
  cases Boundary.ofString text with
  | error failure => rfl
  | ok boundary => exact congrArg Except.ok (agree boundary)

theorem new_bind_eq {f g : Reader Script → Except Failure α}
    (agree : ∀ boundary, f (opened script boundary charset limits) =
      g (opened script.prompt boundary charset limits)) (text : String) :
    (new script text charset limits).bind f = (new script.prompt text charset limits).bind g := by
  rw [new_eq, new_eq]
  cases Boundary.ofString text with
  | error failure => rfl
  | ok boundary => exact agree boundary

end NewLemmas

/-- Blocking and polled readers agree, whatever the sizes of the buffers are and however often the
source has nothing yet. -/
theorem polled_agrees (plain : script.Plain) (boundary : String) (charset : Charset)
    (limits : Limits) (plan : PolledPlan) (sizes : Nat → Rooms) :
    let polled := new script boundary charset limits
    let blocking := new script.prompt boundary charset limits
    polled.map (fun r => account (plan.run r)) =
        blocking.map (fun r => account (plan.erase.run .blocking r)) ∧
      polled.map (fun r => account (plan.erase.run .polled r)) =
        blocking.map (fun r => account (plan.erase.run .blocking r)) ∧
      polled.bind (fun r => r.formBy sizes) = blocking.bind (fun r => r.form .blocking) ∧
      polled.bind (fun r => r.form .polled) = blocking.bind (fun r => r.form .blocking) := by
  have searched (b : Boundary) : (opened script b charset limits).Searched :=
    Scanner.searched_of_scanned rfl
  have same (b : Boundary) : (opened script.prompt b charset limits).core =
      (opened script b charset limits).core := by
    simp only [opened, core, Script.core_prompt]
  have before (b : Boundary) : (opened script b charset limits).Plain := plain
  have after (b : Boundary) : (opened script.prompt b charset limits).Plain := plain_prompt plain
  have accounts (b : Boundary) := account_eq (searched b) (before b) (after b) (same b) plan
  have forms (b : Boundary) := form_eq (searched b) (before b) (after b) (same b) sizes
  exact ⟨new_map_eq (fun b => (accounts b).1) boundary, new_map_eq (fun b => (accounts b).2) boundary,
    new_bind_eq (fun b => (forms b).1) boundary, new_bind_eq (fun b => (forms b).2) boundary⟩

/-- A body that comes with interruptions, and whose source fails behind the closing boundary. -/
def sampleScript : Script := ⟨[
  .data (Utf8.encode "--b\r\n\r\nh"), .pending, .fail (.plain .interrupted), .data [], .pending,
  .data (Utf8.encode "i\r\n--b--"), .pending, .fail (.described .brokenPipe "gone"),
  .data (Utf8.encode "unread")]⟩

theorem polled_agrees_sample :
    sampleScript.Plain ∧
      (new sampleScript "b" .utf8 .default).bind (fun r => r.formBy fun _ _ => ⟨1, Nat.one_pos⟩) =
        .error (.source (.described .brokenPipe "gone")) := by
  have plain : sampleScript.Plain := by
    intro kind failure there
    simp [sampleScript] at there
  refine ⟨plain, ?_⟩
  obtain ⟨-, -, form, -⟩ := polled_agrees plain "b" .utf8 .default [] fun _ _ => ⟨1, Nat.one_pos⟩
  exact form.trans (by decide +kernel)

end Reader

end HttpForms.Multipart
