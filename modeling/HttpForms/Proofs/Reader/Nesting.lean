import HttpForms.Proofs.Reader.Position
import HttpForms.Proofs.Writer.Layout

/-!
# Bodies in sections

A section is a source of its own. It gives its content and then ends, as long as a boundary line ends
it, so a reader of the section is one of that content, whatever the two boundaries are and wherever the
octets are cut. Whoever reads a section, in whatever way, does nothing with the outer reader but
polling it. So the outer body goes on behind the section as it does for whoever skips it.

Readers that foresee the same items cannot be told apart, though a portion need not be as large here
as it is there. What can be seen of them is said twice: by the records that plans make which read
sections as a whole, and by the answers to any demands at all.

Results:

1. `Section.gives` — a section that a boundary line ends gives its content;
2. `Reader.Ahead.indistinct` — readers with the same items ahead cannot be told apart;
3. `Reader.nested_transparent` — a reader of a section is one of its content, and leaves the outer
   reader as if the section had been skipped.
-/

namespace HttpForms.Multipart

/-! ## Sections as sources -/

section Gives

variable {σ : Type} [ByteSource σ] {r : Reader σ} {content : Bytes} {more : List Item} {room : Nat}

/-- A section that a boundary line ends gives its content, however much it is asked for at a time. -/
theorem Section.gives (mode : Mode) (body : r.scanner.phase = .body)
    (foresees : r.Foresees (.content content :: more)) (terminated : Reader.ending more = none)
    (space : 0 < room) : Gives room (⟨r⟩ : Section mode σ) content := by
  induction left : r.remaining using Nat.strongRecOn generalizing r content with
  | ind n ih =>
    have ends := Reader.poll_ends mode foresees body space
    have polls := Reader.poll_remaining mode r room
    have asked : ByteSource.poll (⟨r⟩ : Section mode σ) room = Section.poll ⟨r⟩ room := rfl
    rcases polled : r.poll mode room with ⟨_ | (failure | _ | ⟨b, bytes⟩), t⟩ <;>
      rw [polled] at ends polls <;> rw [Section.poll, polled] at asked
    · exact .pending asked (ih t.remaining (left ▸ polls) ends.1 ends.2 rfl)
    · obtain ⟨-, failed, -⟩ := ends
      rw [terminated] at failed
      cases failed
    · obtain ⟨rfl, -⟩ := ends
      exact .ended asked
    · obtain ⟨rest, rfl, body', onward⟩ := ends
      have less : t.remaining < r.remaining := by
        simp only [Reader.Polls, Reader.taken, List.length_cons] at polls
        omega
      exact .data asked (List.cons_ne_nil b bytes) (ih t.remaining (left ▸ less) body' onward rfl)

end Gives

/-! ## Readers at one place -/

namespace Reader

variable {σ σ' : Type} [ByteSource σ] [ByteSource σ']

/-- Readers at one place. -/
def Alike (r : Reader σ) (r' : Reader σ') : Prop :=
  r.charset = r'.charset ∧ ∃ place, r.Stands place ∧ r'.Stands place

/-- Readers whose next events tell the same. -/
def Abreast (r : Reader σ) (r' : Reader σ') : Prop :=
  r.charset = r'.charset ∧ ∃ items, r.Awaits items ∧ r'.Awaits items

section AlikeLemmas

variable {r : Reader σ} {r' : Reader σ'} {mode : Mode}

theorem charset_drain (mode : Mode) (r : Reader σ) : (r.drain mode).2.charset = r.charset :=
  ((kept_charset r.charset).poll mode).drain rfl

theorem charset_nextEvent (mode : Mode) (r : Reader σ) : (r.nextEvent mode).2.charset = r.charset :=
  (kept_charset r.charset).nextEvent mode rfl

theorem Alike.abreast (alike : Alike r r') : Abreast r r' := by
  obtain ⟨charset, place, stands, stands'⟩ := alike
  exact ⟨charset, place.awaited, stands.awaits, stands'.awaits⟩

/-- Readers at one place read the same to the end of their sections, and are at one place there. -/
theorem Alike.drain (mode : Mode) (alike : Alike r r') :
    (r.drain mode).1 = (r'.drain mode).1 ∧ Alike (r.drain mode).2 (r'.drain mode).2 := by
  obtain ⟨charset, place, stands, stands'⟩ := alike
  obtain ⟨same, onward⟩ := drain_stands mode stands
  obtain ⟨same', onward'⟩ := drain_stands mode stands'
  refine ⟨same.trans same'.symm, ?_, _, onward, onward'⟩
  rw [charset_drain, charset_drain, charset]

/-- The next event is the same, and where it opens a section the readers are at one place in it. -/
theorem Abreast.nextEvent (mode : Mode) (abreast : Abreast r r') :
    (r.nextEvent mode).1 = (r'.nextEvent mode).1 ∧
      Abreast (r.nextEvent mode).2 (r'.nextEvent mode).2 ∧
      ∀ headers, (r.nextEvent mode).1 = .ok (some (.opened headers)) →
        Alike (r.nextEvent mode).2 (r'.nextEvent mode).2 := by
  obtain ⟨charset, items, awaits, awaits'⟩ := abreast
  obtain ⟨same, onward, opens⟩ := nextEvent_awaits mode awaits
  obtain ⟨same', onward', opens'⟩ := nextEvent_awaits mode awaits'
  have charset' : (r.nextEvent mode).2.charset = (r'.nextEvent mode).2.charset := by
    rw [charset_nextEvent, charset_nextEvent, charset]
  have event := same.trans same'.symm
  refine ⟨event, ⟨charset', _, onward, onward'⟩, fun headers told => ?_⟩
  exact ⟨charset', _, opens headers told, opens' headers (event ▸ told)⟩

end AlikeLemmas

end Reader

/-! ## Plans that read sections as a whole -/

/-- Every section is read as a whole, or not at all. -/
def Plan.Whole (plan : Plan) : Prop :=
  ∀ actions ∈ plan, ∀ action ∈ actions, action.Whole

/-- The visitor does the same with readers at one place, and leaves them at one place. -/
structure Visitor.Impartial (v : Visitor) : Prop where
  visit : ∀ {σ σ' : Type} [ByteSource σ] [ByteSource σ'] {r : Reader σ} {r' : Reader σ'}
    (headers : Headers), r.Alike r' → (v.visit headers r).1 = (v.visit headers r').1 ∧
      (v.visit headers r).2.Alike (v.visit headers r').2

/-- All visitors are impartial. -/
structure Visitors.Impartial (vs : Visitors) : Prop where
  first : vs.first.Impartial
  later : ∀ v ∈ vs.later, v.Impartial

section VisitorLemmas

variable {mode : Mode} {v w : Visitor} {vs : Visitors}

theorem Visitors.Impartial.next (impartial : vs.Impartial) : vs.next.Impartial := by
  obtain ⟨first, later⟩ := vs
  cases later with
  | nil => exact impartial
  | cons v later =>
    exact ⟨impartial.later v List.mem_cons_self,
      fun w there => impartial.later w (List.mem_cons_of_mem _ there)⟩

theorem Visitor.impartial_ignore : Visitor.ignore.Impartial where
  visit _ alike := ⟨rfl, alike⟩

theorem Visitor.Impartial.followedBy (first : v.Impartial) (second : w.Impartial) :
    (v.followedBy w).Impartial where
  visit headers alike := by
    obtain ⟨same, onward⟩ := first.visit headers alike
    obtain ⟨same', onward'⟩ := second.visit headers onward
    refine ⟨?_, onward'⟩
    simp only [Visitor.followedBy, same, same']

/-- Whatever reads a section as a whole is impartial. -/
theorem Action.Whole.impartial (mode : Mode) {action : Action} (whole : action.Whole) :
    (action.visitor mode).Impartial where
  visit {σ σ' _ _ r r'} headers alike := by
    obtain ⟨same, onward⟩ := alike.drain mode
    rw [whole.visit_eq mode headers r, whole.visit_eq mode headers r', same, alike.1]
    exact ⟨rfl, onward⟩

theorem Action.impartial_sequence {actions : List Action} (whole : ∀ action ∈ actions, action.Whole) :
    (Action.sequence mode actions).Impartial := by
  induction actions with
  | nil => exact Visitor.impartial_ignore
  | cons action rest ih =>
    have first : (action.visitor mode).Impartial := (whole action List.mem_cons_self).impartial mode
    rw [Action.sequence]
    split
    · exact first
    · exact first.followedBy (ih fun later there => whole later (List.mem_cons_of_mem _ there))

theorem Plan.Whole.impartial {plan : Plan} (whole : plan.Whole) :
    ∀ v ∈ Action.visitors mode plan, v.Impartial := by
  induction plan with
  | nil => exact fun _ there => by cases there
  | cons actions plan ih =>
    intro v there
    rw [Action.visitors] at there
    rcases List.mem_cons.1 there with rfl | later
    · exact Action.impartial_sequence (whole actions List.mem_cons_self)
    · exact ih (fun actions there => whole actions (List.mem_cons_of_mem _ there)) v later

theorem Visitors.impartial_ofList {list : List Visitor} (impartial : ∀ v ∈ list, v.Impartial) :
    (Visitors.ofList mode list).Impartial := by
  cases list with
  | nil =>
    have whole : Action.all.Whole := trivial
    exact ⟨whole.impartial mode, fun _ there => by cases there⟩
  | cons v later =>
    exact ⟨impartial v List.mem_cons_self,
      fun w there => impartial w (List.mem_cons_of_mem _ there)⟩

end VisitorLemmas

namespace Reader

variable {σ σ' : Type} [ByteSource σ] [ByteSource σ']

/-! ## Readers that cannot be told apart -/

/-- No plan that reads sections as a whole tells the readers apart, and no demands do that go on to
the end: what is told of the bodies is the same, and so is the content of every section that is read
to its end in both. -/
structure Indistinct (mode : Mode) (r : Reader σ) (r' : Reader σ') : Prop where
  records : ∀ plan : Plan, plan.Whole → (plan.run mode r).1 = (plan.run mode r').1
  reports : ∀ {demands demands'}, .step (.ok .done) ∈ r.answers mode demands →
    .step (.ok .done) ∈ r'.answers mode demands' →
    report (r.answers mode demands) = report (r'.answers mode demands')
  contents : ∀ {demands demands'}, .step (.ok .done) ∈ r.answers mode demands →
    .step (.ok .done) ∈ r'.answers mode demands' → ∀ {i : Nat} {bytes bytes'},
    (drains (r.answers mode demands))[i]? = some (some bytes) →
    (drains (r'.answers mode demands'))[i]? = some (some bytes') → bytes = bytes'

section IndistinctLemmas

variable {r : Reader σ} {r' : Reader σ'} {mode : Mode} {vs : Visitors} {items : List Item}

/-- Impartial visitors record the same of bodies that the next events tell the same of. -/
theorem transcript_abreast (impartial : vs.Impartial) (times : Nat) (abreast : Abreast r r') :
    (r.transcript mode vs times).1 = (r'.transcript mode vs times).1 := by
  fun_induction transcript mode vs times r generalizing r' with
  | case1 => rw [transcript]
  | case4 vs r times headers t event visited entries u rest =>
    rename_i ih
    obtain ⟨same, -, opens⟩ := abreast.nextEvent mode
    rcases event' : r'.nextEvent mode with ⟨told, t'⟩
    rw [event, event'] at same opens
    obtain rfl := same
    obtain ⟨outcomes, alike⟩ := impartial.first.visit headers (opens headers rfl)
    have behind := ih impartial.next alike.abreast
    rw [rest] at behind
    rw [transcript_step, event']
    simp only [← outcomes, ← behind]
    rfl
  | case2 vs r times bytes t event entries u rest ih
  | case3 vs r times bytes t event entries u rest ih
  | case5 vs r times t event entries u rest ih
  | case6 vs r times failure t event entries u rest ih =>
    obtain ⟨same, onward, -⟩ := abreast.nextEvent mode
    rcases event' : r'.nextEvent mode with ⟨told, t'⟩
    rw [event, event'] at same onward
    obtain rfl := same
    have behind := ih impartial onward
    rw [rest] at behind
    rw [transcript_step, event']
    simp only [← behind]

theorem Ahead.confirms (ahead : r.Ahead items) {demands : List Demand}
    (ends : .step (.ok .done) ∈ r.answers mode demands) :
    Confirms items (r.answers mode demands) := by
  have settled := ahead.awaits.pastContent_eq
  obtain ⟨later, foresees, rfl⟩ := ahead.awaits
  exact (answers_confirm foresees ahead.sound ends).of_pastContent settled

/-- Readers with the same items ahead cannot be told apart. -/
theorem Ahead.indistinct (mode : Mode) (ahead : r.Ahead items) (ahead' : r'.Ahead items)
    (charset : r.charset = r'.charset) : Indistinct mode r r' where
  records plan whole := transcript_abreast (Visitors.impartial_ofList whole.impartial) timesOver
    ⟨charset, items, ahead.awaits, ahead'.awaits⟩
  reports ends ends' := (ahead.confirms ends).report.trans (ahead'.confirms ends').report.symm
  contents ends ends' _ _ _ read read' := by
    have same := ((ahead.confirms ends).drains read).symm.trans ((ahead'.confirms ends').drains read')
    exact Option.some.inj same

end IndistinctLemmas

/-! ## A body in a section -/

variable {source : σ} {b : Boundary} {charset : Charset} {limits : Limits} {body content : Bytes}
  {before more items : List Item} {headers : Headers} {demands : List Demand}

/-- A new reader has ahead what its source parses as. -/
theorem ahead_opened (gives : Gives limits.chunkSize source body)
    (parses : Format.Parses ⟨b, charset, limits.headerLimit⟩ .front body items) :
    (opened source b charset limits).Ahead items where
  sound := Scanner.sound_of_live rfl
  awaits := ⟨items, ⟨body, Scanner.new_foresees.2 parses, fun _ => gives⟩, by cases parses <;> rfl⟩

/-- A section that is skipped and that a boundary line ends has what comes behind it ahead. -/
theorem skip_ahead (mode : Mode) {r : Reader σ} (stands : r.Stands (.inside content more))
    (terminated : ending more = none) :
    (r.skip mode).1 = .ok () ∧ (r.skip mode).2.Ahead more := by
  obtain ⟨drained, behind⟩ := drain_stands mode stands
  have past : Standing.past more = .behind more := by rw [Standing.past, terminated]
  rw [Standing.drain, past] at behind
  rw [Standing.drain, terminated] at drained
  simp only [skip, readAll_eq, drained]
  exact ⟨rfl, Scanner.sound_of_behind behind.1, behind.awaits⟩

/-- Whatever is done with a reader of a section, the outer reader has the same ahead. -/
theorem abandoned_ahead {mode : Mode} (terminated : more ≠ [.failed .unterminatedBody])
    {inner : Reader (Section mode σ)} (ahead : inner.source.reader.Ahead more)
    (demands : List Demand) :
    (inner.behind mode demands).source.reader.Ahead more :=
  (pollKept_ahead mode terminated).nested.behind mode demands ahead

theorem charset_abandoned {mode : Mode} (inner : Reader (Section mode σ)) (demands : List Demand) :
    (inner.behind mode demands).source.reader.charset = inner.source.reader.charset :=
  ((kept_charset inner.source.reader.charset).poll mode).nested.behind mode demands rfl

/-- Nested readers are transparent. Let a reader be at a section that a boundary line ends, however it
got there. Then a reader of the section, with a boundary, a charset and a chunk size of its own, cannot
be told from a reader of the section's content. And wherever the reader of the section is given up, the
outer one cannot be told from one that has skipped the section. -/
theorem nested_transparent (mode : Mode) (gives : Gives limits.chunkSize source body)
    (parses : Format.Parses ⟨b, charset, limits.headerLimit⟩ .front body
      (before ++ .opened headers :: .content content :: more))
    (terminated : more ≠ [.failed .unterminatedBody])
    (reached : asked demands = eventsIn before) :
    ∃ r, ((opened source b charset limits).behind mode demands).nextEvent mode =
        (.ok (some (.opened headers)), r) ∧
      (∀ {σ' : Type} [ByteSource σ'] (direct : σ') (b' : Boundary) (charset' : Charset)
          (limits' limits'' : Limits), 0 < limits'.chunkSize →
        limits''.headerLimit = limits'.headerLimit → Gives limits''.chunkSize direct content →
        Indistinct mode (opened (⟨r⟩ : Section mode σ) b' charset' limits')
          (opened direct b' charset' limits'')) ∧
      (r.skip mode).1 = .ok () ∧
      ∀ (b' : Boundary) (charset' : Charset) (limits' : Limits) (demands' : List Demand),
        Indistinct mode
          ((opened (⟨r⟩ : Section mode σ) b' charset' limits').behind mode demands').source.reader
          (r.skip mode).2 := by
  have ahead := ahead_behind mode (ahead_opened gives parses) reached
  have tells := nextEvent_awaits mode ahead.awaits
  rcases event : ((opened source b charset limits).behind mode demands).nextEvent mode with ⟨told, r⟩
  rw [event] at tells
  obtain ⟨rfl, -, opens⟩ := tells
  have stands : r.Stands (.inside content more) := opens headers rfl
  have open_ : ending more = none := if_neg terminated
  obtain ⟨skipped, past⟩ := skip_ahead mode stands open_
  refine ⟨r, rfl, ?_, skipped, ?_⟩
  · intro σ' _ direct b' charset' limits' limits'' space same given
    -- The two readers differ in their chunk sizes only, and the grammar does not know of these.
    have inner : Gives limits'.chunkSize (⟨r⟩ : Section mode σ) content :=
      Section.gives mode stands.1 stands.2 open_ space
    obtain ⟨items, parses'⟩ :=
      Format.exists_parses ⟨b', charset', limits'.headerLimit⟩ .front content
    have parses'' : Format.Parses ⟨b', charset', limits''.headerLimit⟩ .front content items := by
      rw [same]
      exact parses'
    exact (ahead_opened inner parses').indistinct mode (ahead_opened given parses'') rfl
  · intro b' charset' limits' demands'
    have inside : r.Ahead more :=
      ⟨Scanner.sound_of_live (by rw [stands.1]; rfl), stands.awaits⟩
    refine (abandoned_ahead terminated inside demands').indistinct mode past ?_
    rw [charset_abandoned, show (r.skip mode).2 = (r.drain mode).2 from readAll_snd mode r,
      charset_drain]
    rfl

/-- A body for a section. -/
def innerWriter : Writer :=
  (Writer.new ⟨"inner", by decide⟩).addPart ⟨.empty, Utf8.encode "b"⟩

/-- A body with that body in its second section. -/
def outerWriter : Writer :=
  ((Writer.new ⟨"outer", by decide⟩).addPart ⟨.empty, Utf8.encode "a"⟩)
    |>.addPart ⟨⟨[("Content-Type", "multipart/mixed; boundary=inner")]⟩, innerWriter.chunks.flatten⟩
    |>.addPart ⟨.empty, Utf8.encode "c"⟩

/-- The first section is read in part, and the reader of the second one is given up in its first
section. -/
theorem nested_transparent_sample :
    ∃ r, ((opened (Script.mk (outerWriter.chunks.map .data)) outerWriter.boundary .utf8
        .default).behind .blocking [.event, .event, .content 1]).nextEvent .blocking =
          (.ok (some (.opened ⟨[("Content-Type", "multipart/mixed; boundary=inner")]⟩)), r) ∧
      Indistinct .blocking
        (opened (⟨r⟩ : Section .blocking Script) innerWriter.boundary .utf8 ⟨3, 100⟩)
        (opened (Script.mk (innerWriter.chunks.map .data)) innerWriter.boundary .utf8 ⟨1, 100⟩) ∧
      Indistinct .blocking
        ((opened (⟨r⟩ : Section .blocking Script) innerWriter.boundary .utf8 .default).behind .blocking
          [.event, .event]).source.reader (r.skip .blocking).2 := by
  have written := Writer.toBytes_eq_ok_iff.2
    ⟨(by decide +kernel : outerWriter.refusal? = none), rfl⟩
  have same : outerWriter.parts.map Part.reread = outerWriter.parts := by decide +kernel
  have parses : Format.Parses ⟨outerWriter.boundary, .utf8, Limits.default.headerLimit⟩ .front
      outerWriter.chunks.flatten ([.preamble [], .opened .empty, .content (Utf8.encode "a")] ++
        .opened ⟨[("Content-Type", "multipart/mixed; boundary=inner")]⟩ ::
        .content innerWriter.chunks.flatten ::
        [.opened .empty, .content (Utf8.encode "c"), .epilogue []]) := by
    have parses := parses_of_written written
      (by decide +kernel : ∀ part ∈ outerWriter.parts, part.headers.entries ≠ [] →
        (part.headers.render ++ Bytes.crlf).length ≤ Limits.default.headerLimit)
    rw [same] at parses
    exact parses
  obtain ⟨r, event, inner, -, outer⟩ := nested_transparent .blocking
    (Script.gives (by decide) outerWriter.chunks) parses (by decide)
    (show asked [.event, .event, .content 1] = 2 from rfl)
  exact ⟨r, event, inner _ innerWriter.boundary .utf8 ⟨3, 100⟩ ⟨1, 100⟩ (by decide) rfl
    (Script.gives (by decide) innerWriter.chunks),
    outer innerWriter.boundary .utf8 .default [.event, .event]⟩

end Reader

end HttpForms.Multipart
