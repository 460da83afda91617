import Stylus.Proofs.Run.Chapters
import Stylus.Proofs.Run.Undisturbed

/-!
# A wait holds back the next contact

A wait is done at once: all that it leaves behind is a time before which no contact is to be made.
A tap or a swipe that comes later first brings the head to its place, and looks at that time only
then.  If more than a moment remains it sleeps until the time has come, with the controller in hand;
if not, it goes on, so a contact may come early by no more than that moment.

* `Ripe` — a contact may be made now, with the head in its place since then;
* `Contact.Pace` — how far a step with a contact has come: it is on its way, and will look at the
  time it had at its beginning; or it sleeps; or it makes its contact, and was allowed to;
* `Contact.Paced.moves` — every event that takes its turn further keeps it to that;
* `Contact.Held`, `Bench.KeepsWaits` — what is to be seen of it from outside;
* `Bench.waits_kept` — **every run keeps its waits at every moment**, whatever else happens.
-/

set_option autoImplicit false

namespace Stylus

variable {settings : MotionSettings}

/-! ## Operations one after the other -/

/-- The stage is an operation. -/
def Stage.IsOperation : Stage → Prop
  | .operate _ => True
  | .homeUnlessHomed | .awaitReady _ => False

namespace Turn

variable {c c' : Controller} {now : Nat}

/-- Where there is nothing but operations, a turn does not sleep. -/
theorem GoesOn.of_operations {text : String} {legs : List Leg} {stages rest : List Stage}
    {s : TurnState} {activity : Activity} (h : GoesOn c now text legs stages s)
    (ops : ∀ stage ∈ stages, stage.IsOperation) (busy : s = .busy activity rest) :
    (∃ work, activity = .asking work) ∧ ∀ stage ∈ rest, stage.IsOperation := by
  induction h with
  | asks =>
    cases busy
    exact ⟨⟨_, rfl⟩, ops⟩
  | operate _ ih => exact ih (List.forall_mem_cons.mp ops).2 busy
  | homed | homes | awake | sleeps => exact (ops _ List.mem_cons_self).elim
  | done | refused => cases busy

/-- A turn that sleeps is moved by nothing but waking up in time. -/
theorem Moved.of_sleeping {turn : Turn} {time : Nat} {e : Bench.Event} {sent : List (Gcode × Bool)}
    {s : TurnState} (moved : turn.Moved c now e sent c' s)
    (sleeping : turn.activity = .sleeping time) :
    time ≤ now ∧ GoesOn c now "" [] turn.stages s := by
  cases moved with
  | due due goes =>
    cases due with
    | begins ready => cases sleeping.symm.trans ready
    | wakes sleeping' past =>
      cases sleeping.symm.trans sleeping'
      exact ⟨past, goes⟩
  | linked asking | unlinked asking | failed asking | onward asking | legDone asking =>
    cases sleeping.symm.trans asking

theorem lines_of_asking (work : Work) : 0 < (Activity.asking work).lines.length :=
  Nat.succ_pos _

end Turn

/-! ## When a contact may be made -/

/-- The head having been in its place since `reached`, a contact may be made now: no more than a
moment is missing, and nothing if more was missing then. -/
def Ripe (deadline : Option Nat) (reached now : Nat) : Prop :=
  ∀ time ∈ deadline, time ≤ now + Turn.minimalWait ∧
    (reached + Turn.minimalWait < time → time ≤ now)

theorem Ripe.mono {deadline : Option Nat} {reached now later : Nat} (h : Ripe deadline reached now)
    (hle : now ≤ later) : Ripe deadline reached later := by
  intro time htime
  obtain ⟨hmoment, hlong⟩ := h time htime
  exact ⟨by omega, fun hmissing => Nat.le_trans (hlong hmissing) hle⟩

/-- What need not be waited for may be done now. -/
theorem Ripe.of_mustWait {deadline : Option Nat} {now : Nat}
    (h : Turn.mustWait now deadline = none) : Ripe deadline now now := by
  rintro time ⟨⟩
  rw [Turn.mustWait] at h
  split at h
  · cases h
  · exact ⟨by omega, fun hmissing => by omega⟩

theorem Turn.mustWait_eq_some {deadline : Option Nat} {now time : Nat}
    (h : mustWait now deadline = some time) :
    deadline = some time ∧ now + minimalWait < time := by
  cases deadline with
  | none => cases h
  | some deadline =>
    obtain ⟨hlong, htime⟩ := Option.ite_none_right_eq_some.mp h
    cases htime
    exact ⟨rfl, hlong⟩

/-! ## The pace of a step -/

namespace Contact

/-- The commands that bring the head to its place, with the barrier behind them. -/
def approach (settings : MotionSettings) (c : Contact) : List Gcode :=
  [.absolute, .travel settings (.ofPoint c.point), .finish]

/-- The head is in its place: the way there is on record, and `barrier` is the last of it. -/
def Reached (settings : MotionSettings) (c : Contact) (own : List Entry) (barrier : Entry) : Prop :=
  ∃ contacts way : List Entry, own = contacts ++ barrier :: way ∧
    Entry.lines (barrier :: way) = c.approach settings

/-- Commands beyond the barrier do not change when the head came to its place. -/
theorem Reached.append {c : Contact} {own : List Entry} {barrier : Entry}
    (h : c.Reached settings own barrier) (more : List Entry) :
    c.Reached settings (more ++ own) barrier := by
  obtain ⟨contacts, way, rfl, hway⟩ := h
  exact ⟨more ++ contacts, way, (List.append_assoc _ _ _).symm, hway⟩

/-- **How far a step with a contact has come.** -/
inductive Pace (settings : MotionSettings) (c : Contact) (deadline : Option Nat) (now : Nat)
    (own : List Entry) (turn : Turn) : Prop where
  /-- the head is on its way; the deadline is still to be looked at -/
  | approaching {ahead rest : List Stage}
      (stages : turn.stages = ahead ++ .awaitReady deadline :: rest)
      (ops : ∀ stage ∈ ahead ++ rest, stage.IsOperation)
      (block : c.approach settings ++ Stage.allLines settings rest = c.block) (few : own.length < 3)
      (awake : ∀ time, turn.activity ≠ .sleeping time)
  /-- the head is in its place, and too early -/
  | sleeping {time : Nat} {barrier : Entry} (activity : turn.activity = .sleeping time)
      (ops : ∀ stage ∈ turn.stages, stage.IsOperation) (deadline_eq : deadline = some time)
      (place : Entry.lines own = c.approach settings) (reached : c.Reached settings own barrier)
      (long : barrier.time + Turn.minimalWait < time)
  /-- the contact is made -/
  | touching {work : Work} {barrier : Entry} (activity : turn.activity = .asking work)
      (ops : ∀ stage ∈ turn.stages, stage.IsOperation) (reached : c.Reached settings own barrier)
      (ripe : Ripe deadline barrier.time now)

theorem Pace.mono {c : Contact} {deadline : Option Nat} {now later : Nat} {own : List Entry}
    {turn : Turn} (h : c.Pace settings deadline now own turn) (hle : now ≤ later) :
    c.Pace settings deadline later own turn := by
  cases h with
  | approaching stages ops block few awake => exact .approaching stages ops block few awake
  | sleeping activity ops deadline_eq place reached long =>
    exact .sleeping activity ops deadline_eq place reached long
  | touching activity ops reached ripe => exact .touching activity ops reached (ripe.mono hle)

/-- **What holds of a step with a contact while it is under way.** -/
structure Paced (settings : MotionSettings) (c : Contact) (deadline : Option Nat) (now : Nat)
    (own : List Entry) (turn : Turn) : Prop where
  steady : Stage.AllSteady settings turn.stages
  lines : Entry.lines own ++ turn.remaining settings = c.block
  accepted : ∀ entry ∈ own, entry.accepted = true
  pace : c.Pace settings deadline now own turn

end Contact

/-- A step with a contact goes to its place, looks at the deadline, and makes its contact. -/
theorem Plan.stages_of_contact? {plan : Plan} {step : Step} {c : Contact}
    (contact : plan.contact? settings step = some c) {cursor : Cursor} {now : Nat}
    {stages : List Stage} (taken : cursor.take plan now step = .turn stages) :
    ∃ ahead rest, stages = ahead ++ .awaitReady cursor.deadline :: rest ∧
      (∀ stage ∈ ahead ++ rest, stage.IsOperation) ∧
        c.approach settings ++ Stage.allLines settings rest = c.block := by
  cases Cursor.take_iff.mp taken with
  | @tap location side p resolved =>
    rw [contact?, resolved] at contact
    cases contact
    exact ⟨[.operate (.moveTo (.ofPoint p)), .operate .finish], [.operate .tap, .operate .finish],
      rfl, by simp [Stage.IsOperation], rfl⟩
  | @swipe start goal side p q resolved resolved' =>
    rw [contact?, resolved, resolved'] at contact
    cases contact
    exact ⟨[.operate (.moveTo (.ofPoint p)), .operate .finish], [.operate (.swipe p q)], rfl,
      by simp [Stage.IsOperation], rfl⟩
  | load => cases contact

namespace Contact.Paced

variable {contact : Contact} {deadline : Option Nat} {now : Nat} {own : List Entry} {turn : Turn}
  {c c' : Controller} {e : Bench.Event} {activity : Activity} {ahead rest stages : List Stage}

/-- As long as something is to be sent before the deadline is looked at, the head is on its way. -/
theorem few_of_lines (unsent : 0 < (activity.lines ++ Stage.allLines settings ahead).length)
    (block : contact.approach settings ++ Stage.allLines settings rest = contact.block)
    (lines : Entry.lines own ++
      (activity.lines ++ Stage.allLines settings (ahead ++ .awaitReady deadline :: rest)) =
        contact.block) : own.length < 3 := by
  have hlength := congrArg List.length (lines.trans block.symm)
  simp only [Stage.allLines, List.flatMap_append, List.flatMap_cons, Stage.lines, List.nil_append,
    List.length_append, Entry.lines, List.length_map, List.length_reverse, approach,
    List.length_cons, List.length_nil] at hlength unsent
  omega

/-- If the head comes to its place by an event, that is when the barrier is answered. -/
theorem reached_now (few : own.length < 3)
    (lines : Entry.lines (turn.entries now e ++ own) = contact.approach settings) :
    ∃ barrier, contact.Reached settings (turn.entries now e ++ own) barrier ∧
      barrier.time = now := by
  rw [Turn.entries] at lines ⊢
  rcases turn.answers_cases e with h | ⟨s, h⟩
  · rw [h, List.map_nil, List.nil_append] at lines
    have hlength := congrArg List.length lines
    rw [Entry.lines, List.length_map, List.length_reverse] at hlength
    exact absurd hlength (Nat.ne_of_lt few)
  · rw [h] at lines ⊢
    exact ⟨_, ⟨[], own, rfl, lines⟩, rfl⟩

/-- A step is on its way while it asks for something before the deadline is looked at. -/
theorem pace_of_asking {work : Work} (ops : ∀ stage ∈ ahead ++ rest, stage.IsOperation)
    (block : contact.approach settings ++ Stage.allLines settings rest = contact.block)
    (lines : Entry.lines (turn.entries now e ++ own) ++
      (work.lines ++ Stage.allLines settings (ahead ++ .awaitReady deadline :: rest)) =
        contact.block) :
    contact.Pace settings deadline now (turn.entries now e ++ own)
      { turn with activity := .asking work, stages := ahead ++ .awaitReady deadline :: rest } := by
  have unsent : 0 < ((Activity.asking work).lines ++ Stage.allLines settings ahead).length := by
    rw [List.length_append]
    exact Nat.add_pos_left (Turn.lines_of_asking work) _
  exact .approaching rfl ops block (few_of_lines unsent block lines) (by simp)

/-- The pace of a step on its way, when its turn has gone on to the legs and stages that were
left. -/
theorem pace_of_goesOn (hc : c.settings = settings) {text : String} {legs : List Leg}
    (goes : Turn.GoesOn c now text legs (ahead ++ .awaitReady deadline :: rest)
      (.busy activity stages))
    (ops : ∀ stage ∈ ahead ++ rest, stage.IsOperation)
    (steady : Stage.AllSteady settings (ahead ++ .awaitReady deadline :: rest))
    (block : contact.approach settings ++ Stage.allLines settings rest = contact.block)
    (few : own.length < 3)
    (lines : Entry.lines (turn.entries now e ++ own) ++
      (activity.lines ++ Stage.allLines settings stages) = contact.block) :
    contact.Pace settings deadline now (turn.entries now e ++ own)
      { turn with activity, stages } := by
  cases legs with
  | cons leg legs =>
    cases goes with
    | asks => exact pace_of_asking ops block lines
  | nil =>
    cases ahead with
    | cons stage ahead =>
      -- there is still something to do before the deadline is looked at
      obtain ⟨hstage, hops⟩ := List.forall_mem_cons.mp ops
      cases goes with
      | @operate _ op _ _ goes =>
        obtain ⟨leg, legs, hlegs⟩ := List.exists_cons_of_ne_nil (op.legs_ne_nil c.settings c.pose)
        rw [hlegs] at goes
        cases goes with
        | asks => exact pace_of_asking hops block lines
      | homed | homes | awake | sleeps => exact hstage.elim
    | nil =>
      have hplace (h : activity.lines ++ Stage.allLines settings stages =
          Stage.allLines settings rest) :
          Entry.lines (turn.entries now e ++ own) = contact.approach settings := by
        rw [h, ← block] at lines
        exact List.append_cancel_right lines
      cases goes with
      | sleeps wait =>
        obtain ⟨hdeadline, hlong⟩ := Turn.mustWait_eq_some wait
        obtain ⟨barrier, hreached, htime⟩ := reached_now few (hplace rfl)
        exact .sleeping rfl ops hdeadline (hplace rfl) hreached (by rw [htime]; exact hlong)
      | awake ready goes =>
        obtain ⟨-, -, hrest⟩ := goes.leaves hc steady.tail
        obtain ⟨barrier, hreached, htime⟩ := reached_now few (hplace hrest)
        obtain ⟨⟨work, rfl⟩, hops⟩ := goes.of_operations ops rfl
        exact .touching rfl hops hreached (by rw [htime]; exact .of_mustWait ready)

/-- An answer takes a step to the next command of its operation, or to its next stage. -/
theorem pace_of_moved (h : contact.Paced settings deadline now own turn)
    (hc : c.settings = settings) (moved : turn.moved? c now e = some (c', .busy activity stages))
    (lines : Entry.lines (turn.entries now e ++ own) ++
      (activity.lines ++ Stage.allLines settings stages) = contact.block) :
    contact.Pace settings deadline now (turn.entries now e ++ own)
      { turn with activity, stages } := by
  have hc' : c'.settings = settings := (Turn.moved?_settings moved).trans hc
  have hsteady := h.steady
  have moved := Turn.moved_of_moved? moved
  generalize turn.answers e = sent at moved
  cases h.pace with
  | @approaching ahead rest hstages ops block few awake =>
    rw [hstages] at hsteady
    cases moved with
    | due _ goes =>
      rw [hstages] at goes
      exact pace_of_goesOn hc goes ops hsteady block few lines
    | linked | onward =>
      rw [hstages] at lines ⊢
      exact pace_of_asking ops block lines
    | legDone _ _ _ goes =>
      rw [hstages] at goes
      exact pace_of_goesOn hc' goes ops hsteady block few lines
  | @sleeping time barrier hactivity ops deadline_eq place reached long =>
    obtain ⟨htime, goes⟩ := moved.of_sleeping hactivity
    obtain ⟨⟨work, rfl⟩, hops⟩ := goes.of_operations ops rfl
    refine .touching rfl hops (reached.append _) ?_
    rintro deadline hdeadline
    rw [deadline_eq] at hdeadline
    cases hdeadline
    exact ⟨Nat.le_add_right_of_le htime, fun _ => htime⟩
  | touching hactivity ops reached ripe =>
    cases moved with
    | due due => exact absurd hactivity (due.ne_asking _)
    | linked | onward => exact .touching rfl ops (reached.append _) ripe
    | legDone _ _ _ goes =>
      obtain ⟨⟨work, rfl⟩, hops⟩ := goes.of_operations ops rfl
      exact .touching rfl hops (reached.append _) ripe

/-- **Every event that takes the turn further keeps the step to its pace.** -/
theorem moves (h : contact.Paced settings deadline now own turn) (hc : c.settings = settings)
    (moved : turn.moved? c now e = some (c', .busy activity stages)) :
    contact.Paced settings deadline now (turn.entries now e ++ own)
      { turn with activity, stages } := by
  obtain ⟨haccepted, hsteady, hleaves⟩ := Turn.moved?_leaves hc h.steady moved
  have hlines : Entry.lines (turn.entries now e ++ own) ++
      (activity.lines ++ Stage.allLines settings stages) = contact.block := by
    rw [Entry.lines_append, turn.lines_entries, List.append_assoc, hleaves]
    exact h.lines
  refine ⟨hsteady, hlines, ?_, h.pace_of_moved hc moved hlines⟩
  intro entry he
  rcases List.mem_append.mp he with he | he
  · obtain ⟨s, hs, rfl⟩ := List.mem_map.mp he
    exact haccepted s hs
  · exact h.accepted entry he

/-- A step with a contact begins on its way. -/
theorem opens {plan : Plan} {step : Step} (contact? : plan.contact? settings step = some contact)
    {cursor : Cursor} (taken : cursor.take plan now step = .turn stages) :
    contact.Paced settings cursor.deadline now [] ⟨.run, .ready, stages⟩ := by
  obtain ⟨stages', taken', steady, lines⟩ := Plan.take_of_contact? contact? cursor now
  cases taken.symm.trans taken'
  obtain ⟨ahead, rest, hstages, ops, block⟩ := Plan.stages_of_contact? contact? taken
  exact ⟨steady, lines, by simp, .approaching hstages ops block (by simp) (by simp)⟩

end Contact.Paced

/-! ## Steps -/

/-- A step without a contact that comes to a turn waits for nothing. -/
theorem Plan.stages_of_no_contact {plan : Plan} {step : Step}
    (contact : plan.contact? settings step = none) {cursor : Cursor} {now : Nat}
    {stages : List Stage} (taken : cursor.take plan now step = .turn stages) :
    ∀ stage ∈ stages, stage.IsOperation := by
  cases Cursor.take_iff.mp taken with
  | tap resolved =>
    rw [contact?, resolved] at contact
    cases contact
  | swipe resolved resolved' =>
    rw [contact?, resolved, resolved'] at contact
    cases contact
  | load => simp [Stage.IsOperation]

/-- What holds of a step without a contact while it is under way: it does not sleep, and will
not. -/
structure Turn.Restless (turn : Turn) : Prop where
  awake : ∀ time, turn.activity ≠ .sleeping time
  ops : ∀ stage ∈ turn.stages, stage.IsOperation

theorem Turn.Restless.moves {turn : Turn} (h : turn.Restless) {c c' : Controller} {now : Nat}
    {e : Bench.Event} {activity : Activity} {stages : List Stage}
    (moved : turn.moved? c now e = some (c', .busy activity stages)) :
    Turn.Restless { turn with activity, stages } := by
  have moved := moved_of_moved? moved
  generalize turn.answers e = sent at moved
  cases moved with
  | due _ goes | legDone _ _ _ goes =>
    obtain ⟨⟨work, rfl⟩, hops⟩ := goes.of_operations h.ops rfl
    exact ⟨by simp, hops⟩
  | linked | onward => exact ⟨by simp, h.ops⟩

/-- **A step with a contact keeps to its pace**, and every other one waits for nothing. -/
def delayLaw (settings : MotionSettings) (plan : Plan) : StepLaw settings plan where
  during deadline now chapter turn :=
    (∀ c, plan.contact? settings chapter.step = some c →
        c.Paced settings deadline now chapter.entries turn) ∧
      (plan.contact? settings chapter.step = none → turn.Restless)
  after _ := True
  opens _ taken :=
    ⟨fun _ contact => .opens contact taken,
      fun contact => ⟨by simp, Plan.stages_of_no_contact contact taken⟩⟩
  instant _ := trivial
  lasts during later :=
    ⟨fun c contact => have h := during.1 c contact
      ⟨h.steady, h.lines, h.accepted, h.pace.mono later⟩, during.2⟩
  moves hc during moved :=
    ⟨fun c contact => (during.1 c contact).moves hc moved,
      fun contact => (during.2 contact).moves moved⟩
  closes _ _ _ := trivial

/-! ## Runs -/

/-- **What a step with a contact keeps to** while it is under way: `deadline` is when the wait
before it is over, and `own` is what is on record of it. -/
structure Contact.Held (settings : MotionSettings) (c : Contact) (deadline : Option Nat) (b : Bench)
    (own : List Entry) : Prop where
  /-- its commands are those of the contact, as far as it has come -/
  block : Entry.lines own <+: c.block
  next : ∀ line, b.outstanding? = some (.run, line) → Entry.lines own ++ [line] <+: c.block
  /-- it sleeps only when the way is behind it, only if more than a moment was missing then, and
  until the wait is over -/
  asleep : ∀ turn time, b.holder = some turn → turn.owner = .run → turn.activity = .sleeping time →
    deadline = some time ∧ Entry.lines own = c.approach settings ∧
      ∃ barrier, c.Reached settings own barrier ∧ barrier.time + Turn.minimalWait < time
  /-- a command that is no part of the way is sent only when a contact may be made -/
  held : ∀ line, b.outstanding? = some (.run, line) →
    ¬ Entry.lines own ++ [line] <+: c.approach settings →
      ∃ barrier, c.Reached settings own barrier ∧ Ripe deadline barrier.time b.now

/-- **What a run keeps to**, by its chapters. -/
structure Bench.KeepsWaits (settings : MotionSettings) (b : Bench) (run : Run)
    (chapters : List Chapter) : Prop where
  /-- a wait is done at once: nothing is sent, and nobody is asked for a turn -/
  wait : ∀ spec, b.begins? .decide = some (run, .wait spec) →
    (∃ failure, b.stepEnd? .decide = some (run.cursor.stepIndex, failure)) ∧
      (b.step .decide).log = b.log ∧ (b.step .decide).line = b.line ∧
        (b.step .decide).controller = b.controller ∧ (b.step .decide).now = b.now
  /-- a step with a contact waits for the wait that was carried out last -/
  contact : run.phase = .working → ∀ step c,
    run.plan.script.steps[run.cursor.stepIndex]? = some step →
      run.plan.contact? settings step = some c → ∃ chapter earlier, chapters = chapter :: earlier ∧
        chapter.step = step ∧ c.Held settings (Chapter.due? earlier) b chapter.entries
  /-- a step that sleeps has a contact, and a wait was carried out before it -/
  delayed : ∀ turn time, b.holder = some turn → turn.owner = .run → turn.activity = .sleeping time →
    ∃ chapter earlier, chapters = chapter :: earlier ∧
      run.plan.contact? settings chapter.step ≠ none ∧ Chapter.due? earlier = some time ∧
        ∃ before ∈ earlier, ∃ spec, before.step = .wait spec

/-- The commands of a contact begin with the way there, and there is more. -/
theorem Contact.Regular.approach_prefix {c : Contact} (h : c.Regular settings) :
    c.approach settings <+: c.block := by
  rcases h with ⟨p, rfl⟩ | ⟨p, q, rfl⟩
  · exact ⟨_, rfl⟩
  · exact ⟨_, rfl⟩

/-- When something is waited for, there was a wait. -/
theorem Chapter.wait_of_due {chapters : List Chapter} {time : Nat} (h : due? chapters = some time) :
    ∃ chapter ∈ chapters, ∃ spec, chapter.step = .wait spec := by
  refine Classical.byContradiction fun hnone => ?_
  have hdue : due? chapters = none :=
    due?_eq_none fun chapter hchapter spec hspec => hnone ⟨chapter, hchapter, spec, hspec⟩
  rw [hdue] at h
  cases h

namespace Bench

variable {b : Bench}

/-- A command of the run waits for its answer while the run has the controller. -/
theorem holder_of_outstanding {line : Gcode} (ask : b.outstanding? = some (.run, line)) :
    ∃ turn work, b.holder = some turn ∧ turn.owner = .run ∧ turn.activity = .asking work ∧
      work.line = line := by
  cases hb : b.holder with
  | none => simp [outstanding?, hb] at ask
  | some turn =>
    rw [outstanding?, hb, Option.bind_some] at ask
    split at ask
    · rename_i work hactivity
      cases hl : work.linking with
      | true =>
        rw [Work.ask_of_linking hl] at ask
        cases ask
      | false =>
        rw [Work.ask_of_not_linking hl] at ask
        obtain ⟨ho, hline⟩ := Prod.mk.inj (Option.some.inj ask)
        exact ⟨turn, work, rfl, ho, hactivity, hline⟩
    · cases ask

end Bench

/-- A step that keeps to its pace keeps to what a step with a contact is to keep to. -/
theorem Contact.Paced.held {contact : Contact} {deadline : Option Nat} {b : Bench}
    {own : List Entry} {turn : Turn} (h : contact.Paced settings deadline b.now own turn)
    (regular : contact.Regular settings)
    (only : ∀ t, b.holder = some t → t.owner = .run → t = turn) :
    contact.Held settings deadline b own := by
  have hnext (line : Gcode) (ask : b.outstanding? = some (.run, line)) :
      Entry.lines own ++ [line] <+: contact.block := by
    obtain ⟨t, work, hb, ho, hactivity, rfl⟩ := Bench.holder_of_outstanding ask
    obtain rfl := only t hb ho
    refine ⟨work.rest ++ Leg.allLines work.legs ++ Stage.allLines settings t.stages, ?_⟩
    rw [← h.lines, Turn.remaining, hactivity, Activity.lines, Work.lines]
    simp
  refine ⟨⟨_, h.lines⟩, hnext, ?_, ?_⟩
  · intro t time hb ho hactivity
    obtain rfl := only t hb ho
    cases h.pace with
    | approaching _ _ _ _ awake => exact absurd hactivity (awake time)
    | sleeping activity _ deadline_eq place reached long =>
      rw [hactivity] at activity
      cases activity
      exact ⟨deadline_eq, place, _, reached, long⟩
    | touching activity =>
      rw [hactivity] at activity
      cases activity
  · intro line ask hbeyond
    obtain ⟨t, work, hb, ho, hactivity, -⟩ := Bench.holder_of_outstanding ask
    obtain rfl := only t hb ho
    cases h.pace with
    | approaching _ _ _ few _ =>
      -- fewer commands than the way has are on record, so this one is part of it
      refine absurd ?_ hbeyond
      refine List.prefix_of_prefix_length_le (hnext line ask) regular.approach_prefix ?_
      rw [List.length_append, Entry.lines, List.length_map, List.length_reverse]
      exact few
    | sleeping activity =>
      rw [hactivity] at activity
      cases activity
    | touching _ _ reached ripe => exact ⟨_, reached, ripe⟩

namespace Bench

/-- A wait that begins is done, or fails, by the same event. -/
theorem stepEnd_of_wait {b : Bench} {run : Run} {spec : String}
    (begins : b.begins? .decide = some (run, .wait spec)) :
    (∃ failure, b.stepEnd? .decide = some (run.cursor.stepIndex, failure)) ∧
      (b.step .decide).log = b.log ∧ (b.step .decide).line = b.line ∧
        (b.step .decide).controller = b.controller ∧ (b.step .decide).now = b.now := by
  have hr := (begins?_decide.mp begins).1
  have hm := runMove_decide hr
  generalize hstep : b.step .decide = b' at hm ⊢
  cases hm with
  | begins begins' taken =>
    cases begins.symm.trans begins'
    exact absurd rfl (Cursor.ne_wait_of_turn taken spec)
  | does begins' taken =>
    exact ⟨⟨_, by simp only [stepEnd?, begins', taken]; rfl⟩, rfl, rfl, rfl, rfl⟩
  | refused begins' taken =>
    exact ⟨⟨_, by simp only [stepEnd?, begins', taken]; rfl⟩, rfl, rfl, rfl, rfl⟩
  | stays _ _ _ _ none => rw [begins] at none; cases none
  | wakes _ _ _ none => rw [begins] at none; cases none
  | passes _ _ none => rw [begins] at none; cases none
  | fails _ _ none => rw [begins] at none; cases none
  | rests _ _ pause => rw [begins?_of_wish (by simp [pause])] at begins; cases begins
  | stopped _ stop => rw [begins?_of_wish (by simp [stop])] at begins; cases begins
  | completed _ _ behind =>
    rw [(begins?_decide.mp begins).2.2.2] at behind
    cases behind

/-- **Waits delay the next contact and nothing else.**  Whatever has happened before the request,
whatever is wished for meanwhile, whatever others ask for, and however long the plotter takes to
answer: at every moment of a run a step with a contact waits for the wait that was carried out last,
and only when the head is in its place; a step without a contact waits for nothing, and a wait
itself is over as soon as it begins. -/
theorem waits_kept {before : List Event} {r : RunRequest} {b : Bench}
    (accepted : ((fresh settings).steps before).request r = .ok b) {events : List Event}
    (goes : b.GoesOn events) {run : Run} (hr : (b.steps events).run = some run) :
    (b.steps events).KeepsWaits settings run (b.journal events) := by
  obtain ⟨hs, hc, plan, -, start⟩ := start_of_accepted accepted
  obtain ⟨run', kept⟩ := kept_journal (delayLaw settings plan) hs hc start goes
  obtain rfl := Option.some.inj (kept.run_eq.symm.trans hr)
  have hnow := hs.steps events
  have hplan := kept.plan_eq
  -- the deadline of the cursor is that of the wait before the step under way
  have hdue {chapter : Chapter} {earlier : List Chapter} {turn : Turn}
      (hw : Midway (delayLaw settings plan) (b.steps events, b.journal events) run' chapter
        earlier turn)
      (hworking : run'.phase = .working) : run'.cursor.deadline = Chapter.due? earlier := by
    obtain ⟨now, step, stages, hstep, taken⟩ := hnow.step run' kept.run_eq hworking
    rw [hplan] at hstep taken
    obtain rfl := Option.some.inj (hstep.symm.trans hw.step)
    rw [kept.deadline, hw.chapters, Chapter.due?_cons_of_ne_wait (Cursor.ne_wait_of_turn taken)]
  refine ⟨fun spec begins => stepEnd_of_wait begins, ?_, ?_⟩
  · intro hworking step c hstep contact
    obtain ⟨chapter, earlier, turn, hw⟩ := kept.within hworking
    rw [hplan] at hstep contact
    obtain rfl := Option.some.inj (hw.step.symm.trans hstep)
    refine ⟨chapter, earlier, hw.chapters, rfl, ?_⟩
    have hpaced := hw.during.1 c contact
    rw [hdue hw hworking] at hpaced
    exact hpaced.held (Plan.contact?_regular contact) fun t hb ho => Kept.holder hnow hw hb ho
  · intro turn time hb ho hactivity
    obtain ⟨⟨_, hr', hworking⟩, -⟩ := hnow.holder_run hb ho
    obtain rfl := Option.some.inj (kept.run_eq.symm.trans hr')
    obtain ⟨chapter, earlier, turn', hw⟩ := kept.within hworking
    obtain rfl := Kept.holder hnow hw hb ho
    rw [hplan]
    cases contact : plan.contact? settings chapter.step with
    | none => exact absurd hactivity ((hw.during.2 contact).awake time)
    | some c =>
      have hpaced := hw.during.1 c contact
      rw [hdue hw hworking] at hpaced
      have hheld := hpaced.held (Plan.contact?_regular contact)
        fun t hb ho => Kept.holder hnow hw hb ho
      obtain ⟨hdeadline, -, -⟩ := hheld.asleep turn time hb ho hactivity
      exact ⟨chapter, earlier, hw.chapters, by simp [contact], hdeadline,
        Chapter.wait_of_due hdeadline⟩

/-- A script that waits before it taps. -/
def waitThenTap : RunRequest where
  script := { steps := [.wait "500ms", .tap "A" none] }
  left := some ((Layout.new "").learn .left "A" ⟨10, 20⟩)

/-- The wait is over at 500; the head is in its place at 100, and the tap sleeps. -/
def untilAsleep : List Event :=
  [.decide, .decide, .proceed, .answer (.ok "ok"), .pass 100, .answer (.ok "ok"),
    .answer (.ok "ok")]

theorem waits_kept_waitThenTap :
    ∃ b run asleep touching, ((fresh {}).steps homing).request waitThenTap = .ok b ∧
      b.GoesOn (untilAsleep ++ [.pass 400, .wake]) ∧
      (b.steps untilAsleep).run = some run ∧
      (b.steps untilAsleep).holder = some asleep ∧ asleep.activity = .sleeping 500 ∧
      (b.steps untilAsleep).KeepsWaits {} run (b.journal untilAsleep) ∧
      (b.steps (untilAsleep ++ [.pass 400, .wake])).run = some touching ∧
      (b.steps (untilAsleep ++ [.pass 400, .wake])).now = 500 ∧
      (b.steps (untilAsleep ++ [.pass 400, .wake])).outstanding? = some (.run, .relativeStylus) ∧
      (b.steps (untilAsleep ++ [.pass 400, .wake])).KeepsWaits {} touching
        (b.journal (untilAsleep ++ [.pass 400, .wake])) := by
  have accepted : ((fresh {}).steps homing).request waitThenTap =
      .ok (((fresh {}).steps homing).step (.request waitThenTap)) := rfl
  have goes : (((fresh {}).steps homing).step (.request waitThenTap)).GoesOn
      (untilAsleep ++ [.pass 400, .wake]) :=
    ⟨rfl, rfl, rfl, rfl, rfl, rfl, rfl, rfl, rfl, trivial⟩
  have goesFirst : (((fresh {}).steps homing).step (.request waitThenTap)).GoesOn untilAsleep :=
    ⟨rfl, rfl, rfl, rfl, rfl, rfl, rfl, trivial⟩
  exact ⟨_, _, _, _, accepted, goes, rfl, rfl, rfl, waits_kept accepted goesFirst rfl, rfl, rfl,
    rfl, waits_kept accepted goes rfl⟩

end Bench

end Stylus
