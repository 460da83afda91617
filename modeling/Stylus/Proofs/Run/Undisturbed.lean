import Stylus.Proofs.Bench.Contact
import Stylus.Proofs.Bench.Homed
import Stylus.Proofs.Run.Moves
import Stylus.Proofs.Run.Waiting

/-!
# What an undisturbed run sends

A run on a homed plotter that acknowledges everything, while nobody else asks for anything, sends
the commands of its steps in the order of its script.  Pauses do not show on record.

* `Plan.block`, `Plan.lines` — the commands of a step, and of steps in order;
* `Plan.Sensible` — a plan with nothing in it that must fail;
* `Bench.Event.pausing` — an event that disturbs a run by no more than pauses;
* `Bench.Undisturbed` — what is on record of a run, and how it ends;
* `Bench.undisturbed_run` — every run of a sensible plan goes like that.

The invariant is `Alone`: what is on record and what the turn in hand has still to send are the
commands of the steps begun, of which the account knows that they are those of the script.
-/

set_option autoImplicit false

namespace Stylus

/-- The unrolling of a script does not get stuck if every loop has a mark before it. -/
theorem Script.stuck_of_marked {script : Script} (marked : ∀ l : Nat,
    script.steps[l]? = some .loop → ∃ m < l, script.steps[m]? = some .mark) :
    script.unrolling.stuck = none := by
  cases hstuck : script.unrolling.stuck with
  | none => rfl
  | some l =>
    obtain ⟨hl, hnone⟩ := Script.unrolling_stuck hstuck
    obtain ⟨m, hlt, hm⟩ := marked l (Script.firstLoop?_eq_some.mp hl).1
    have hsome := Script.lastMark?_isSome hm hlt
    rw [hnone] at hsome
    cases hsome

/-! ## What a plan sends -/

namespace Plan

/-- The commands of a step, if its locations resolve. -/
def block (plan : Plan) (settings : MotionSettings) (step : Step) : List Gcode :=
  match plan.contact? settings step with
  | some c => c.block
  | none =>
    match step with
    | .load => [.absolute, .move [(settings.loadAxis, settings.loadPosition)] none]
    | _ => []

/-- The commands of the steps at these positions, in order. -/
def lines (plan : Plan) (settings : MotionSettings) (positions : List Nat) : List Gcode :=
  positions.flatMap fun i => (plan.script.steps[i]?).elim [] (plan.block settings)

/-- Every location of a step resolves. -/
def Resolves (plan : Plan) : Step → Prop
  | .tap location side => ∃ p : Point, plan.resolve side location = .ok p
  | .swipe start goal side =>
    (∃ p : Point, plan.resolve side start = .ok p) ∧ ∃ q : Point, plan.resolve side goal = .ok q
  | _ => True

/-- **A plan with nothing in it that must fail.** -/
structure Sensible (plan : Plan) : Prop where
  resolves : ∀ step ∈ plan.script.steps, plan.Resolves step
  /-- every loop has a mark before it -/
  marked : ∀ l : Nat, plan.script.steps[l]? = some .loop →
    ∃ m < l, plan.script.steps[m]? = some .mark
  /-- the loops can be counted -/
  fits : plan.script.iterationCount.toNat + plan.script.steps.count .loop ≤ UInt32.size

theorem lines_append (plan : Plan) (settings : MotionSettings) (before after : List Nat) :
    plan.lines settings (before ++ after) =
      plan.lines settings before ++ plan.lines settings after :=
  List.flatMap_append

theorem lines_prefix {plan : Plan} {settings : MotionSettings} {before all : List Nat}
    (h : before <+: all) : plan.lines settings before <+: plan.lines settings all := by
  obtain ⟨after, rfl⟩ := h
  rw [lines_append]
  exact List.prefix_append _ _

/-- A turn that a step comes to has just the commands of the step. -/
theorem block_of_turn {plan : Plan} {cursor : Cursor} {now : Nat} {step : Step}
    {stages : List Stage} (taken : cursor.take plan now step = .turn stages)
    (settings : MotionSettings) : Stage.allLines settings stages = plan.block settings step := by
  cases hc : plan.contact? settings step with
  | some c =>
    obtain ⟨stages', taken', -, hlines⟩ := plan.take_of_contact? hc cursor now
    rw [taken] at taken'
    cases taken'
    simp only [block, hc, hlines]
  | none =>
    cases Cursor.take_iff.mp taken with
    | tap resolved => simp [contact?, resolved] at hc
    | swipe resolved resolved' => simp [contact?, resolved, resolved'] at hc
    | load => rfl

/-- A step that needs no turn has no commands. -/
theorem block_of_done {plan : Plan} {cursor cursor' : Cursor} {now : Nat} {step : Step}
    (taken : cursor.take plan now step = .done cursor') (settings : MotionSettings) :
    plan.block settings step = [] := by
  cases Cursor.take_iff.mp taken <;> rfl

/-- The unrolling of a sensible plan does not get stuck. -/
theorem Sensible.stuck {plan : Plan} (h : plan.Sensible) :
    plan.script.unrolling.stuck = none :=
  Script.stuck_of_marked h.marked

/-- A wait can be told by the clock now. -/
def Timely (now : Nat) (spec : String) : Prop :=
  ∃ span : Nat, TimeSpec.milliseconds spec = .ok span ∧ now + span ≤ Clock.horizon

/-- No step of a sensible plan fails before it asks for the controller. -/
theorem Sensible.take_ne_failed {plan : Plan} (h : plan.Sensible) {cursor : Cursor}
    (course : cursor.OnCourse plan.script) {step : Step}
    (hs : plan.script.steps[cursor.stepIndex]? = some step) {now : Nat}
    (timely : ∀ spec : String, step = .wait spec → Timely now spec) (f : Failure) :
    cursor.take plan now step ≠ .failed f := by
  intro taken
  have hresolves := h.resolves step (List.mem_of_getElem? hs)
  cases Cursor.take_iff.mp taken with
  | noPlace unresolved =>
    obtain ⟨p, hp⟩ := hresolves
    cases hp.symm.trans unresolved
  | noStart unresolved =>
    obtain ⟨⟨p, hp⟩, -⟩ := hresolves
    cases hp.symm.trans unresolved
  | noGoal _ unresolved =>
    obtain ⟨-, q, hq⟩ := hresolves
    cases hq.symm.trans unresolved
  | noSpan | tooLate =>
    obtain ⟨span, hspan, htime⟩ := timely _ rfl
    cases taken.symm.trans (Cursor.take_iff.mpr (.wait hspan (if_pos htime)))
  | noMark =>
    rcases course.loopBack h.fits hs with ⟨cursor', hdone, -⟩ | ⟨-, -, hstuck⟩
    · cases hdone.symm.trans taken
    · rw [h.stuck] at hstuck
      cases hstuck

end Plan

/-! ## What is on record of a run -/

namespace Bench

/-- A run is disturbed by no more than pauses: nobody else asks for anything, and nothing fails. -/
def Event.pausing : Event → Bool
  | .pause | .resume => true
  | e => e.undisturbed

/-- Every wait that the run begins can be told by the clock. -/
def WaitsTimely (b : Bench) : List Event → Prop
  | [] => True
  | e :: events =>
    (∀ (run : Run) (spec : String), b.begins? e = some (run, .wait spec) →
      Plan.Timely b.now spec) ∧ (b.step e).WaitsTimely events

/-- The commands that whoever has the controller has still to send. -/
def pending (settings : MotionSettings) (b : Bench) : List Gcode :=
  b.holder.elim [] (Turn.remaining settings)

/-- **What is on record of a run that nobody disturbs**: the commands of its script, as far as it
has come, and all of them when it has ended. -/
structure Undisturbed (settings : MotionSettings) (plan : Plan) (b : Bench) (events : List Event) :
    Prop where
  log : ∃ own : List Entry, (b.steps events).log = own ++ b.log ∧
    (∀ entry ∈ own, entry.owner = .run ∧ entry.accepted = true) ∧
    Entry.lines own <+: plan.lines settings plan.script.unrolling.steps ∧
    ((b.account events).ended.isSome = true →
      Entry.lines own = plan.lines settings plan.script.unrolling.steps)
  /-- it cannot end but by completion -/
  completed : ∀ result : Except Failure RunOutcome,
    (b.account events).ended = some result → result = .ok .completed
  /-- until then it can go on, and needs nobody for it -/
  goes : (b.account events).ended = none → ∃ (span : Nat) (e : Event),
    e.undisturbed = true ∧ ((b.steps events).step (.pass span)).advances e = true

theorem Event.good_of_pausing {e : Event} (h : e.pausing = true) : e.good = true := by
  cases e with
  | answer a =>
    cases a with
    | ok text => rfl
    | error f => cases h
  | _ => rfl

/-- A pause is not a stop. -/
theorem Event.stop_of_pausing {e : Event} (h : e.pausing = true) {change : Runner → Runner}
    (wish : e.wish? = some change) {r : Runner} (stop : r.control.stop = false) :
    (change r).control.stop = false := by
  cases e <;> cases wish
  · exact stop
  · exact stop
  · cases h

/-! ## Nobody else -/

/-- Nobody but the run has the controller or waits for it. -/
structure Lone (b : Bench) : Prop where
  waiting : b.waiting = []
  holder : ∀ turn : Turn, b.holder = some turn → turn.owner = .run

/-- Between steps the controller is free. -/
theorem Lone.free {b : Bench} (h : b.Lone) (hs : b.Sound) (hw : b.working = false) :
    b.holder = none := by
  cases hb : b.holder with
  | none => rfl
  | some turn =>
    obtain ⟨⟨run, hr, hp⟩, -⟩ := hs.holder_run hb (h.holder turn hb)
    simp [working, hr, hp] at hw

theorem Lone.of_free {b : Bench} (waiting : b.waiting = []) (holder : b.holder = none) :
    b.Lone := by
  refine ⟨waiting, fun turn hb => ?_⟩
  rw [holder] at hb
  cases hb

theorem wakeRun_lone {b : Bench} (h : b.Lone) : b.wakeRun.Lone := by
  simp only [wakeRun]
  split
  · split
    · exact ⟨h.waiting, h.holder⟩
    · exact h
  · exact h

/-- Pauses bring nobody else to the controller. -/
theorem Lone.event {b : Bench} (h : b.Lone) (hs : b.Sound) {e : Event}
    (pausing : e.pausing = true) : (b.step e).Lone := by
  have hm := b.move e
  generalize b.step e = b' at hm
  cases hm with
  | start => cases pausing
  | wish => exact wakeRun_lone ⟨h.waiting, h.holder⟩
  | poll => exact wakeRun_lone h
  | queue => cases pausing
  | withdraw => cases pausing
  | @busy _ turn c activity stages moving =>
    have owner := h.holder turn (moving?_eq_some.mp moving).1
    refine ⟨h.waiting, ?_⟩
    rintro _ ⟨⟩
    exact owner
  | @finish _ turn c result moving =>
    have owner := h.holder turn (moving?_eq_some.mp moving).1
    rw [owner]
    simp only [turnOver, runTurnOver, handOn_eq]
    split
    · exact .of_free (by simp [h.waiting]) (by simp [h.waiting])
    · split
      · exact .of_free (by simp [passStep, h.waiting]) (by simp [passStep, h.waiting])
      · exact .of_free (by simp [endRun, h.waiting]) (by simp [endRun, h.waiting])
  | @takeTurn run step stages begins taken =>
    obtain ⟨hr, boundary, -⟩ := begins?_decide.mp begins
    have hfree : Bench.holder { b with run := some { run with phase := .working } } = none :=
      h.free hs (Sound.not_working hr (by simp [boundary]))
    rw [queue_of_free hfree]
    refine ⟨h.waiting, ?_⟩
    rintro _ ⟨⟩
    rfl
  | _ => exact ⟨h.waiting, h.holder⟩

/-! ## The invariant -/

/-- **What holds of a run that nobody disturbs, and of the account of it.** -/
structure Alone (settings : MotionSettings) (plan : Plan) (base : List Entry)
    (s : Bench × Account) : Prop where
  homed : s.1.controller.Homed settings
  stop : s.1.runner.control.stop = false
  lone : s.1.Lone
  /-- what is on record and what is still to be sent belongs to the steps begun -/
  log : ∃ own : List Entry, s.1.log = own ++ base ∧
    (∀ entry ∈ own, entry.owner = .run ∧ entry.accepted = true) ∧
    Entry.lines own ++ s.1.pending settings = plan.lines settings s.2.begun
  ended : s.2.ended = none ∨ s.2.ended = some (.ok .completed) ∧ s.1.run = none

namespace Alone

variable {settings : MotionSettings} {plan : Plan} {base : List Entry} {s : Bench × Account}
  {e : Event}

/-- An event that begins no step, moves no turn, and leaves the run on the bench. -/
theorem quiet (h : Alone settings plan base s) (active : s.2.ended = none) {b' : Bench}
    (step : s.1.step e = b') (begins : s.1.begins? e = none) {run : Run}
    (run_eq : b'.run = some run) (lone : b'.Lone) (controller : b'.controller = s.1.controller)
    (stop : b'.runner.control.stop = false) (holder : b'.holder = s.1.holder)
    (log : b'.log = s.1.log) : Alone settings plan base (b', s.2.note s.1 e) := by
  have hbegun : (s.2.note s.1 e).begun = s.2.begun := by
    rw [Account.note_begun active, begins]
    exact List.append_nil _
  have hpending : b'.pending settings = s.1.pending settings := by rw [pending, holder, pending]
  refine ⟨controller ▸ h.homed, stop, lone, ?_, .inl ?_⟩
  · rw [log, hpending, hbegun]
    exact h.log
  · rw [Account.note_ended active, ending?_eq_none step run_eq]

/-- What is on record when some of what the turn in hand had to send is acknowledged. -/
theorem sends (h : Alone settings plan base s) (active : s.2.ended = none) {turn : Turn}
    {c : Controller} {state : TurnState} (moving : s.1.moving? e = some (turn, c, state))
    (accepted : AllAccepted (turn.answers e)) {rest : List Gcode}
    (left : (turn.answers e).map Prod.fst ++ rest = turn.remaining settings) :
    ∃ own : List Entry, s.1.entries e ++ s.1.log = own ++ base ∧
      (∀ entry ∈ own, entry.owner = .run ∧ entry.accepted = true) ∧
      Entry.lines own ++ rest = plan.lines settings (s.2.note s.1 e).begun := by
  have hb := (moving?_eq_some.mp moving).1
  obtain ⟨own, hlog, hown, hlines⟩ := h.log
  refine ⟨s.1.entries e ++ own, ?_, ?_, ?_⟩
  · rw [hlog, List.append_assoc]
  · intro entry he
    rcases List.mem_append.mp he with he | he
    · exact ⟨(Entry.owner_entries hb entry he).trans (h.lone.holder turn hb),
        Entry.accepted_entries hb accepted entry he⟩
    · exact hown entry he
  · rw [Account.note_begun active, begins?_of_moving moving, Option.map_none, Option.toList_none,
      List.append_nil, ← hlines, pending, hb, Option.elim_some, ← left, Entry.lines_append,
      Entry.lines_entries hb, List.append_assoc]

/-- The turn in hand goes on. -/
theorem busy (h : Alone settings plan base s) (active : s.2.ended = none) (good : e.good = true)
    {run : Run} (hr : s.1.run = some run) {turn : Turn} {c : Controller} {activity : Activity}
    {stages : List Stage} (moving : s.1.moving? e = some (turn, c, .busy activity stages))
    {b' : Bench} (lone : b'.Lone) (step : s.1.step e = b') (b'_eq : b' = { s.1 with
      log := s.1.entries e ++ s.1.log
      controller := c
      holder := some { turn with activity, stages } }) :
    Alone settings plan base (b', s.2.note s.1 e) := by
  obtain ⟨hb, hmoved⟩ := moving?_eq_some.mp moving
  obtain ⟨hc, accepted, left⟩ := turn.moved?_goes h.homed good hmoved
  obtain ⟨own, hlog, hown, hlines⟩ := h.sends active moving accepted left
  subst b'_eq
  have hended : (s.2.note s.1 e).ended = none := by
    rw [Account.note_ended active, ending?_eq_none step hr]
  exact ⟨hc, h.stop, lone, ⟨own, hlog, hown, hlines⟩, .inl hended⟩

/-- The turn in hand is over, and with it the step. -/
theorem finish (h : Alone settings plan base s) (active : s.2.ended = none) (good : e.good = true)
    {run : Run} (hr : s.1.run = some run) {turn : Turn} {c : Controller}
    {result : Except Failure String} (moving : s.1.moving? e = some (turn, c, .over result))
    {b' : Bench} (lone : b'.Lone) (step : s.1.step e = b') (b'_eq : b' =
      turnOver { s.1 with log := s.1.entries e ++ s.1.log, controller := c } turn.owner result) :
    Alone settings plan base (b', s.2.note s.1 e) := by
  obtain ⟨hb, hmoved⟩ := moving?_eq_some.mp moving
  obtain ⟨hc, hgoes⟩ := turn.moved?_goes h.homed good hmoved
  cases result with
  | error f => exact hgoes.elim
  | ok text =>
    obtain ⟨accepted, left⟩ := hgoes
    rw [← List.append_nil ((turn.answers e).map Prod.fst)] at left
    obtain ⟨own, hlog, hown, hlines⟩ := h.sends active moving accepted left
    have hr' : Bench.run { s.1 with log := s.1.entries e ++ s.1.log, controller := c } = some run :=
      hr
    rw [h.lone.holder turn hb, turnOver_run_ok hr', handOn_eq, h.lone.waiting] at b'_eq
    have hended : (s.2.note s.1 e).ended = none := by
      rw [Account.note_ended active, ending?_eq_none step (congrArg Bench.run b'_eq)]
    subst b'_eq
    exact ⟨hc, h.stop, lone, ⟨own, hlog, hown, hlines⟩, .inl hended⟩

/-- A step begins that needs the controller. -/
theorem takesTurn (h : Alone settings plan base s) (hs : s.1.Sound) (active : s.2.ended = none)
    {run : Run} {x : Step} {stages : List Stage} (hplan : run.plan = plan)
    (begins : s.1.begins? .decide = some (run, x))
    (taken : run.cursor.take run.plan s.1.now x = .turn stages) {b' : Bench} (lone : b'.Lone)
    (step : s.1.step .decide = b')
    (b'_eq : b' = queue { s.1 with run := some { run with phase := .working } } .run stages) :
    Alone settings plan base (b', s.2.note s.1 .decide) := by
  obtain ⟨hr, boundary, -, hx⟩ := begins?_decide.mp begins
  have hfree := h.lone.free hs (Sound.not_working hr (by simp [boundary]))
  obtain ⟨own, hlog, hown, hlines⟩ := h.log
  rw [pending, hfree, Option.elim_none, List.append_nil] at hlines
  have hfree' : Bench.holder { s.1 with run := some { run with phase := .working } } = none := hfree
  rw [queue_of_free hfree'] at b'_eq
  have hended : (s.2.note s.1 .decide).ended = none := by
    rw [Account.note_ended active, ending?_eq_none step (congrArg Bench.run b'_eq)]
  subst b'_eq
  refine ⟨h.homed, h.stop, lone, ⟨own, hlog, hown, ?_⟩, .inl hended⟩
  have hblock := Plan.block_of_turn taken settings
  rw [Account.note_begun active, begins, hlines, Option.map_some, Option.toList_some,
    plan.lines_append, ← hplan]
  simp [pending, Turn.remaining, Activity.lines, Plan.lines, hx, hblock]

/-- A step is done that needs nothing. -/
theorem takesDone (h : Alone settings plan base s) (active : s.2.ended = none)
    {run : Run} {x : Step} {cursor : Cursor} (hplan : run.plan = plan)
    (begins : s.1.begins? .decide = some (run, x))
    (taken : run.cursor.take run.plan s.1.now x = .done cursor)
    (step : s.1.step .decide = s.1.passStep run cursor) :
    Alone settings plan base (s.1.passStep run cursor, s.2.note s.1 .decide) := by
  obtain ⟨-, -, -, hx⟩ := begins?_decide.mp begins
  obtain ⟨own, hlog, hown, hlines⟩ := h.log
  have hended : (s.2.note s.1 .decide).ended = none := by
    rw [Account.note_ended active, ending?_eq_none step rfl]
  refine ⟨h.homed, h.stop, ⟨h.lone.waiting, h.lone.holder⟩, ⟨own, hlog, hown, ?_⟩, .inl hended⟩
  have hblock := Plan.block_of_done taken settings
  have hpending : (s.1.passStep run cursor).pending settings = s.1.pending settings := rfl
  rw [Account.note_begun active, begins, hpending, hlines, Option.map_some, Option.toList_some,
    plan.lines_append, ← hplan]
  simp [Plan.lines, hx, hblock]

/-- The run has no step left. -/
theorem completes (h : Alone settings plan base s) (active : s.2.ended = none) {run : Run}
    (hr : s.1.run = some run) (begins : s.1.begins? .decide = none)
    (step : s.1.step .decide = s.1.endRun (.ok .completed)) :
    Alone settings plan base (s.1.endRun (.ok .completed), s.2.note s.1 .decide) := by
  obtain ⟨own, hlog, hown, hlines⟩ := h.log
  have hended : (s.2.note s.1 .decide).ended = some (.ok .completed) := by
    rw [Account.note_ended active, ending?_endRun hr step]
  refine ⟨h.homed, rfl, ⟨h.lone.waiting, h.lone.holder⟩, ⟨own, hlog, hown, ?_⟩, .inr ⟨hended, rfl⟩⟩
  have hpending : (s.1.endRun (.ok .completed)).pending settings = s.1.pending settings := rfl
  rw [Account.note_begun active, begins, hpending, hlines]
  exact congrArg _ (List.append_nil _).symm

/-- **An event that disturbs the run by no more than a pause takes it further along its
commands.** -/
theorem active (h : Alone settings plan base s) (hs : s.1.Sound) (sensible : plan.Sensible)
    {run : Run} (hplan : run.plan = plan) (under : Underway s.1 s.2 run)
    (pausing : e.pausing = true)
    (timely : ∀ (run : Run) (spec : String), s.1.begins? e = some (run, .wait spec) →
      Plan.Timely s.1.now spec) : Alone settings plan base (watch s e) := by
  have active := under.ended
  have hr := under.run_eq
  have lone := h.lone.event hs pausing
  rw [watch]
  have hm := s.1.move e
  generalize step : s.1.step e = b' at hm lone
  cases hm with
  | idle begins moving => exact h.quiet active step begins hr lone rfl h.stop rfl rfl
  | pass span => exact h.quiet active step rfl hr lone rfl h.stop rfl rfl
  | start => cases pausing
  | @wish _ change wish =>
    have hr' : Bench.run { s.1 with runner := change s.1.runner } = some run := hr
    obtain ⟨phase, hwake, -⟩ := wakeRun_eq hr'
    have begins := begins?_of_ne_decide (b := s.1) (Event.not_holders_of_wish wish).2
    rw [control, hwake] at step lone ⊢
    exact h.quiet active step begins rfl lone rfl (Event.stop_of_pausing pausing wish h.stop) rfl
      rfl
  | poll =>
    obtain ⟨phase, hwake, -⟩ := wakeRun_eq hr
    rw [hwake] at step lone ⊢
    exact h.quiet active step rfl rfl lone rfl h.stop rfl rfl
  | queue => cases pausing
  | withdraw => cases pausing
  | busy moving => exact h.busy active (Event.good_of_pausing pausing) hr moving lone step rfl
  | finish moving => exact h.finish active (Event.good_of_pausing pausing) hr moving lone step rfl
  | stopped run_eq boundary stop =>
    rw [h.stop] at stop
    cases stop
  | @rest run' run_eq boundary pause begins =>
    exact h.quiet active step begins rfl lone rfl h.stop rfl rfl
  | completed run_eq boundary behind begins => exact h.completes active run_eq begins step
  | takeTurn begins taken =>
    obtain rfl := under.eq_run (begins?_decide.mp begins).1
    exact h.takesTurn hs active hplan begins taken lone step rfl
  | takeDone begins taken =>
    obtain rfl := under.eq_run (begins?_decide.mp begins).1
    exact h.takesDone active hplan begins taken step
  | takeFailed begins taken =>
    obtain ⟨hr', -, -, hx⟩ := begins?_decide.mp begins
    obtain rfl := under.eq_run hr'
    subst hplan
    refine absurd taken (sensible.take_ne_failed under.course hx ?_ _)
    rintro spec rfl
    exact timely _ spec begins

/-- When the run has ended, nothing more is sent. -/
theorem afterwards (h : Alone settings plan base s) (hs : s.1.Sound)
    (ended : s.2.ended = some (.ok .completed)) (hr : s.1.run = none) (pausing : e.pausing = true) :
    Alone settings plan base (watch s e) := by
  have hfree := h.lone.free hs (by rw [working, hr]; rfl)
  have hnote : s.2.note s.1 e = s.2 := Account.note_of_ended (by rw [ended]; rfl) s.1 e
  have lone := h.lone.event hs pausing
  rw [watch, hnote]
  have hm := s.1.move e
  generalize s.1.step e = b' at hm lone
  -- without a holder and a run, all that can change is the time and the wishes
  have same (controller : b'.controller = s.1.controller) (stop : b'.runner.control.stop = false)
      (holder : b'.holder = s.1.holder) (log : b'.log = s.1.log) (run : b'.run = s.1.run) :
      Alone settings plan base (b', s.2) := by
    have hpending : b'.pending settings = s.1.pending settings := by rw [pending, holder, pending]
    refine ⟨controller ▸ h.homed, stop, lone, ?_, .inr ⟨ended, run.trans hr⟩⟩
    rw [log, hpending]
    exact h.log
  have moving {turn : Turn} {c : Controller} {state : TurnState}
      (hm : s.1.moving? e = some (turn, c, state)) : False := by
    have hb := (moving?_eq_some.mp hm).1
    rw [hfree] at hb
    cases hb
  have running {run : Run} (hr' : s.1.run = some run) : False := by
    rw [hr] at hr'
    cases hr'
  cases hm with
  | idle => exact same rfl h.stop rfl rfl rfl
  | pass => exact same rfl h.stop rfl rfl rfl
  | start => cases pausing
  | wish _ wish =>
    rw [control_of_idle hr] at same ⊢
    exact same rfl (Event.stop_of_pausing pausing wish h.stop) rfl rfl rfl
  | poll =>
    rw [wakeRun_of_idle hr] at same ⊢
    exact same rfl h.stop rfl rfl rfl
  | queue => cases pausing
  | withdraw => cases pausing
  | busy hmoving => exact (moving hmoving).elim
  | finish hmoving => exact (moving hmoving).elim
  | stopped run_eq => exact (running run_eq).elim
  | rest run_eq => exact (running run_eq).elim
  | completed run_eq => exact (running run_eq).elim
  | takeTurn begins => exact (running (begins?_decide.mp begins).1).elim
  | takeDone begins => exact (running (begins?_decide.mp begins).1).elim
  | takeFailed begins => exact (running (begins?_decide.mp begins).1).elim

theorem events {s : Bench × Account} (h : Alone settings plan base s) (acc : Accounted plan s)
    (sensible : plan.Sensible) {events : List Event} (pausing : ∀ e ∈ events, e.pausing = true)
    (timely : s.1.WaitsTimely events) : Alone settings plan base (events.foldl watch s) := by
  induction events generalizing s with
  | nil => exact h
  | cons e events ih =>
    have hpausing := pausing e List.mem_cons_self
    refine ih ?_ (acc.watch sensible.fits e) (fun e' he' => pausing e' (List.mem_cons_of_mem _ he'))
      timely.2
    rcases h.ended with hnone | ⟨hended, hr⟩
    · rcases acc.2 with ⟨run, hplan, under⟩ | ⟨hsome, -⟩
      · exact h.active acc.1 sensible hplan under hpausing timely.1
      · rw [hnone] at hsome
        cases hsome
    · exact h.afterwards acc.1 hended hr hpausing

/-- A run that has just started on a free plotter is alone. -/
theorem start {b b' : Bench} (hs : b.Sound) (free : b.holder = none)
    (homed : b.controller.Homed settings) (h : b.start plan = .ok b') :
    Alone settings plan b'.log (b', {}) := by
  rw [Bench.start] at h
  split at h
  · cases h
  · cases h
    refine ⟨homed, rfl, .of_free (hs.free free) free, ⟨[], rfl, by simp, ?_⟩, .inl rfl⟩
    simp [pending, free, Entry.lines, Plan.lines]

/-- Once a sensible plan has been completed, all of it has been begun. -/
theorem begun_of_completed {a : Account} (sensible : plan.Sensible)
    (follows : a.Follows plan.script.unrolling) (ended : a.ended = some (.ok .completed)) :
    a.begun = plan.script.unrolling.steps := by
  obtain ⟨hpassed, -⟩ := follows.completed ended
  have hbegun := follows.begun
  rw [Unrolling.positions, sensible.stuck, Option.toList_none, List.append_nil] at hbegun
  rcases follows.oneByOne with h | ⟨i, h⟩
  · rw [← h, hpassed]
  · rw [hpassed] at h
    have hlength := hbegun.length_le
    rw [← h, List.length_append, List.length_singleton] at hlength
    omega

/-- What the invariant says of what is on record. -/
theorem record (h : Alone settings plan base s) (acc : Accounted plan s)
    (sensible : plan.Sensible) :
    ∃ own : List Entry, s.1.log = own ++ base ∧
      (∀ entry ∈ own, entry.owner = .run ∧ entry.accepted = true) ∧
      Entry.lines own <+: plan.lines settings plan.script.unrolling.steps ∧
      (s.2.ended.isSome = true →
        Entry.lines own = plan.lines settings plan.script.unrolling.steps) := by
  have follows : s.2.Follows plan.script.unrolling := by
    rcases acc.2 with ⟨run, rfl, under⟩ | ⟨-, follows⟩
    · exact under.agrees acc.1
    · exact follows
  obtain ⟨own, hlog, hown, hlines⟩ := h.log
  refine ⟨own, hlog, hown, ?_, fun hsome => ?_⟩
  · have hbegun := follows.begun
    rw [Unrolling.positions, sensible.stuck, Option.toList_none, List.append_nil] at hbegun
    refine List.IsPrefix.trans ?_ (Plan.lines_prefix hbegun)
    rw [← hlines]
    exact List.prefix_append _ _
  · rcases h.ended with hnone | ⟨hended, hr⟩
    · rw [hnone] at hsome
      cases hsome
    · have hfree := h.lone.free acc.1 (by rw [working, hr]; rfl)
      rw [pending, hfree, Option.elim_none, List.append_nil] at hlines
      rw [hlines, begun_of_completed sensible follows hended]

end Alone

/-! ## Going on -/

/-- More than a step takes: it is decided on, and its stages are gone through. -/
def stepMoves : Nat :=
  Stage.limit * 5 + 2

/-- More than what a run still takes that is not paused; `moves` is what its turn does. -/
def runMoves (run : Run) (moves : Nat) : Nat :=
  let ahead := (run.cursor.ahead run.plan.script).length
  match run.phase with
  | .boundary => stepMoves * ahead + 1
  | .resting _ => stepMoves * ahead + 2
  | .working => stepMoves * (ahead - 1) + 1 + moves

/-- More than what the run on the bench still takes. -/
def movesToEnd (b : Bench) : Nat :=
  b.run.elim 0 fun run => runMoves run b.movesToRun

theorem movesToEnd_of_run {b : Bench} {run : Run} (hr : b.run = some run) :
    b.movesToEnd = runMoves run b.movesToRun := by
  rw [movesToEnd, hr, Option.elim_some]

theorem stages_length {plan : Plan} {cursor : Cursor} {now : Nat} {step : Step}
    {stages : List Stage} (taken : cursor.take plan now step = .turn stages) :
    stages.length ≤ 5 := by
  cases Cursor.take_iff.mp taken with
  | tap => exact Nat.le_refl 5
  | swipe => exact Nat.le_succ 4
  | load => exact Nat.le_add_left 1 4

/-- **What holds of a run that nobody disturbs, and that is not to pause.** -/
structure Going (plan : Plan) (b : Bench) : Prop where
  sound : b.Sound
  calm : b.runner.control = {}
  lone : b.Lone
  underway : ∃ (a : Account) (run : Run), run.plan = plan ∧ Underway b a run

/-- A resumption, or nothing that disturbs. -/
def Event.going : Event → Bool
  | .resume => true
  | e => e.undisturbed

theorem Event.pausing_of_going {e : Event} (h : e.going = true) : e.pausing = true := by
  cases e with
  | pause => cases h
  | _ => exact h

/-- Without a pause the wishes stay as they are. -/
theorem Event.wished_of_going {e : Event} (h : e.going = true) {r : Runner}
    (calm : r.control = {}) : (e.wished r).control = {} := by
  cases e with
  | pause => cases h
  | stop => cases h
  | resume => exact congrArg (fun control : Control => { control with pause := false }) calm
  | _ => exact calm

theorem advances_resting {b : Bench} {run : Run} (hr : b.run = some run) {time : Nat}
    (hp : run.phase = .resting time) {e : Event} (early : e = .poll → b.now < time) :
    b.advances e = false := by
  cases e with
  | poll =>
    have := early rfl
    simp [advances, hr, hp, this]
  | _ => simp [advances, hr, hp]

/-- An event by which the run goes on brings it nearer to its end. -/
theorem Going.nearer {plan : Plan} {b : Bench} (h : Going plan b)
    (fits : plan.script.iterationCount.toNat + plan.script.steps.count .loop ≤ UInt32.size)
    {e : Event} (going : e.going = true) {run : Run} (hplan : run.plan = plan) {a : Account}
    (under : Underway b a run) (hend : b.ending? e = none) :
    (b.step e).runner.control = {} ∧
      (b.step e).movesToEnd + (b.advances e).toNat ≤ b.movesToEnd := by
  have hr := under.run_eq
  have hbound := Bool.toNat_le (b.advances e)
  have hnotEnd {bench : Bench} {result : Except Failure RunOutcome}
      (hstep : b.step e = bench.endRun result) : False := by
    rw [ending?_endRun hr hstep] at hend
    cases hend
  have hm := runMove h.sound hr e
  generalize hstep : b.step e = b' at hm
  rw [movesToEnd_of_run hr]
  cases hm with
  | stays run_eq runner resting undecided =>
    refine ⟨runner ▸ Event.wished_of_going going h.calm, ?_⟩
    rw [movesToEnd_of_run run_eq]
    cases hp : run.phase with
    | boundary =>
      have he : e ≠ .decide := fun he => undecided he hp
      simp [runMoves, hp, advances_boundary hr hp he]
    | resting time => simp [runMoves, hp, advances_resting hr hp (resting time hp).2]
    | working =>
      have hw : b.working = true := working_iff.mpr ⟨run, hr, hp⟩
      have hw' : b'.working = true := working_iff.mpr ⟨run, run_eq, hp⟩
      have hmoves := movesToRun_move h.sound hw (hstep ▸ b.move e) hw'
      simp only [runMoves, hp, advances_working hr hp]
      omega
  | wakes resting run_eq runner =>
    refine ⟨runner ▸ Event.wished_of_going going h.calm, ?_⟩
    rw [movesToEnd_of_run run_eq]
    simp only [runMoves, resting]
    omega
  | rests boundary stop pause =>
    rw [h.calm] at pause
    cases pause
  | @begins step stages begins taken =>
    obtain ⟨-, boundary, -, hs⟩ := begins?_decide.mp begins
    have hfree : Bench.holder { b with run := some { run with phase := .working } } = none :=
      h.lone.free h.sound (Sound.not_working hr (by simp [boundary]))
    obtain ⟨-, hahead⟩ := under.course.turn hs taken
    have hlength := stages_length taken
    refine ⟨by rw [queue_runner, h.calm], ?_⟩
    rw [queue_of_free hfree, movesToEnd_of_run rfl, movesToRun_of_holder rfl]
    simp only [runMoves, boundary, hahead, isRunTurn, Turn.moves, Activity.moves, stepMoves,
      Stage.limit, List.length_cons, decide_true, if_true]
    omega
  | @does step cursor begins taken =>
    obtain ⟨-, boundary, -, hs⟩ := begins?_decide.mp begins
    obtain ⟨-, hahead⟩ := under.course.done (hplan ▸ fits) hs taken
    refine ⟨h.calm, ?_⟩
    have hrun : (b.passStep run cursor).run = some { run with cursor, phase := .boundary } := rfl
    rw [movesToEnd_of_run hrun]
    simp only [runMoves, boundary, hahead, stepMoves, Stage.limit, List.length_cons]
    omega
  | refused => exact (hnotEnd hstep).elim
  | @passes _ bench working runner =>
    obtain ⟨-, hahead⟩ := under.working h.sound working
    have hpos := movesToRun_pos h.sound (working_iff.mpr ⟨run, hr, working⟩)
    have hrun : (bench.passStep run run.cursor.advance).run =
        some { run with cursor := run.cursor.advance, phase := .boundary } := rfl
    refine ⟨by rw [passStep, runner]; exact h.calm, ?_⟩
    rw [movesToEnd_of_run hrun]
    simp only [runMoves, working, hahead, List.length_cons, Nat.add_sub_cancel]
    omega
  | fails => exact (hnotEnd hstep).elim
  | stopped => exact (hnotEnd hstep).elim
  | completed => exact (hnotEnd hstep).elim

theorem Going.event {plan : Plan} {b : Bench} (h : Going plan b)
    (fits : plan.script.iterationCount.toNat + plan.script.steps.count .loop ≤ UInt32.size)
    {e : Event} (going : e.going = true) :
    (b.ending? e).isSome = true ∨
      Going plan (b.step e) ∧ (b.step e).movesToEnd + (b.advances e).toNat ≤ b.movesToEnd := by
  obtain ⟨a, run, hplan, under⟩ := h.underway
  cases hend : b.ending? e with
  | some result => exact .inl rfl
  | none =>
    have hnote := Account.note_ended under.ended b e
    obtain ⟨calm, nearer⟩ := h.nearer fits going hplan under hend
    have lone := h.lone.event h.sound (Event.pausing_of_going going)
    rcases under.move h.sound (hplan ▸ fits) rfl (b.move e) with ⟨run', hplan', under'⟩ | ⟨hsome, -⟩
    · exact .inr ⟨⟨h.sound.step_event e, calm, lone, _, run', hplan'.trans hplan, under'⟩, nearer⟩
    · rw [hnote, hend] at hsome
      cases hsome

theorem Going.movesToEnd_pos {plan : Plan} {b : Bench} (h : Going plan b) : 0 < b.movesToEnd := by
  obtain ⟨a, run, -, under⟩ := h.underway
  rw [movesToEnd_of_run under.run_eq]
  simp only [runMoves]
  split <;> omega

/-! ## All schedules of pauses -/

/-- What the invariant comes to. -/
theorem Alone.undisturbed {settings : MotionSettings} {plan : Plan} {b : Bench}
    (sensible : plan.Sensible) {events : List Event}
    (h : Alone settings plan b.log (events.foldl watch (b, {})))
    (acc : Accounted plan (events.foldl watch (b, {}))) : Undisturbed settings plan b events := by
  have hlog := h.record acc sensible
  have hsteps := foldl_watch_fst (b, ({} : Account)) events
  rw [hsteps] at hlog
  refine ⟨hlog, fun result hresult => ?_, fun hnone => ?_⟩
  · rcases h.ended with hnone | ⟨hended, -⟩
    · exact nomatch hnone.symm.trans hresult
    · exact Option.some.inj (hresult.symm.trans hended)
  · rcases acc.2 with ⟨run, -, under⟩ | ⟨hsome, -⟩
    · have hs := acc.1
      have hr := under.run_eq
      rw [hsteps] at hs hr
      exact exists_advance hs hr
    · rw [account] at hnone
      rw [hnone] at hsome
      cases hsome

/-- A run that is on, alone, and not to pause, goes on. -/
theorem Alone.going {settings : MotionSettings} {plan : Plan} {base : List Entry}
    {s : Bench × Account} (h : Alone settings plan base s) (acc : Accounted plan s)
    (active : s.2.ended = none) (resumed : s.1.runner.control.pause = false) : Going plan s.1 := by
  have calm : s.1.runner.control = {} := by
    have hstop := h.stop
    cases hcontrol : s.1.runner.control with
    | mk pause stop => simp_all
  refine ⟨acc.1, calm, h.lone, ?_⟩
  rcases acc.2 with ⟨run, hplan, under⟩ | ⟨hsome, -⟩
  · exact ⟨s.2, run, hplan, under⟩
  · rw [active] at hsome
    cases hsome

/-- **Pauses do not show.**  A sensible plan, begun while the plotter is homed and free and carried
out while it acknowledges everything and nobody else asks for anything, is on record with the
commands of its steps in the order of its script, however often the run is paused; and when it is no
longer to pause, it ends with all of them. -/
theorem undisturbed_run {settings : MotionSettings} {before : List Event} {r : RunRequest}
    {plan : Plan} {b : Bench} (planned : r.plan = .ok plan) (sensible : plan.Sensible)
    (free : ((fresh settings).steps before).holder = none)
    (homed : ((fresh settings).steps before).controller.pose.homed = true)
    (accepted : ((fresh settings).steps before).request r = .ok b)
    {events : List Event} (pausing : ∀ e ∈ events, e.pausing = true)
    (timely : b.WaitsTimely events) :
    Undisturbed settings plan b events ∧
      ((b.steps events).runner.control.pause = false → ∃ n : Nat, ∀ later : List Event,
        (∀ e ∈ later, e.going = true) → b.WaitsTimely (events ++ later) →
          n ≤ (b.steps events).advancesIn later →
            Undisturbed settings plan b (events ++ later) ∧
              (b.account (events ++ later)).ended = some (.ok .completed)) := by
  have hs := (Sound.of_fresh settings).steps before
  have hsettings := steps_settings (fresh settings) before
  have hstart := (request_of_plan planned).symm.trans accepted
  have halone := Alone.start hs free ⟨hsettings, homed⟩ hstart
  have hacc := Accounted.start hstart (hs.request accepted)
  have halone' := halone.events hacc sensible pausing timely
  have hacc' := hacc.foldl sensible.fits events
  refine ⟨halone'.undisturbed sensible hacc', fun resumed => ?_⟩
  have hsteps := foldl_watch_fst (b, ({} : Account)) events
  refine ⟨(b.steps events).movesToEnd, fun later going timely' enough => ?_⟩
  have pausing' : ∀ e ∈ events ++ later, e.pausing = true := by
    intro e he
    rcases List.mem_append.mp he with he | he
    · exact pausing e he
    · exact Event.pausing_of_going (going e he)
  have whole := (halone.events hacc sensible pausing' timely').undisturbed sensible
    (hacc.foldl sensible.fits _)
  have hsome : (b.account (events ++ later)).ended.isSome = true := by
    rw [account_append]
    cases hended : (b.account events).ended with
    | some result =>
      have hsome : (b.steps events, b.account events).2.ended.isSome = true := by
        rw [hended]
        rfl
      rw [ended_foldl_watch hsome]
      exact hsome
    | none =>
      have hgoing := halone'.going hacc' hended (hsteps ▸ resumed)
      rw [hsteps] at hgoing
      exact ended_of_advances (Going plan) movesToEnd (fun e => e.going = true)
        (fun b e he hb => hb.event sensible.fits he) (fun b hb => hb.movesToEnd_pos) hgoing going
        enough _
  obtain ⟨result, hresult⟩ := Option.isSome_iff_exists.mp hsome
  obtain rfl := whole.completed result hresult
  exact ⟨whole, hresult⟩

/-- The plotter is homed. -/
def homing : List Event :=
  [.queue .operator [.operate .home], .proceed, .answer (.ok ""), .answer (.ok "ok")]

/-- A run is paused in its only step, and resumed when it rests. -/
def pausedInTap : List Event :=
  .decide :: .pause :: .proceed ::
    (List.replicate 7 (.answer (.ok "ok")) ++ [.decide, .resume, .decide])

theorem undisturbed_run_pausedInTap :
    ∃ (plan : Plan) (b : Bench), tapOnce.plan = .ok plan ∧ plan.Sensible ∧
      ((fresh {}).steps homing).holder = none ∧
      ((fresh {}).steps homing).controller.pose.homed = true ∧
      ((fresh {}).steps homing).request tapOnce = .ok b ∧
      (∀ e ∈ pausedInTap, e.pausing = true) ∧ b.WaitsTimely pausedInTap ∧
      Undisturbed {} plan b pausedInTap ∧
      (b.account pausedInTap).ended = some (.ok .completed) := by
  have accepted : ((fresh {}).steps homing).request tapOnce =
      .ok (((fresh {}).steps homing).step (.request tapOnce)) := rfl
  have sensible : Plan.Sensible ⟨tapOnce.script, tapOnce.left, tapOnce.right, .left⟩ := by
    refine ⟨?_, ?_, by decide⟩
    · intro step hstep
      obtain rfl := List.mem_singleton.mp hstep
      exact ⟨⟨10, 20⟩, rfl⟩
    · intro l hl
      cases l <;> cases hl
  have pausing : ∀ e ∈ pausedInTap, e.pausing = true := by decide
  have timely : (((fresh {}).steps homing).step (.request tapOnce)).WaitsTimely pausedInTap := by
    refine ⟨?_, ?_, ?_, ?_, ?_, ?_, ?_, ?_, ?_, ?_, ?_, ?_, ?_, trivial⟩
    all_goals
      intro run spec begins
      cases begins
  have planned : tapOnce.plan = .ok ⟨tapOnce.script, tapOnce.left, tapOnce.right, .left⟩ := rfl
  exact ⟨_, _, planned, sensible, rfl, rfl, accepted, pausing, timely,
    (undisturbed_run planned sensible rfl rfl accepted pausing timely).1, rfl⟩

end Bench

end Stylus
