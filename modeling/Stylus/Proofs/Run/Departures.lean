import Stylus.Proofs.Run.Lifecycle
import Stylus.Proofs.Run.Wishes

/-!
# Starts and exits, one write at a time

A run that ends clears the running flag, and then forgets the wishes; a start sets the flag, and
then forgets the wishes.  A bench takes the two writes of either for one move.  But a cell is locked
for a single write only, so others may come in between: with the flag cleared the next run is
started, a client asks it to stop, and then the run before it forgets that wish as one of its own.

* `Threads`, `Threads.step` — the bench, with starts and exits that are half done;
* `Threads.steps_undivided` — without anything in between, they are the moves of the bench;
* `Threads.Orderly` — what holds whatever comes in between;
* `Threads.watch_eq` — while no exit is half done, a run under way is as on the bench;
* `Threads.stop_heeded` — **a wish for a stop is heeded if no earlier run is still to forget the
  wishes, and can be lost without a trace if one is**;
* `Threads.stop_lost` — a run that goes on after it was told to stop.

`Threads.HeedsStop` is what a wish for a stop comes to on the bench (`Run/Wishes`), with these acts
for events.
-/

set_option autoImplicit false

namespace Stylus

/-! ## Ends -/

namespace Bench

/-- The invariant is not about the wishes. -/
theorem Sound.with_runner {b : Bench} (hs : b.Sound) {runner : Runner}
    (h : runner.progress.running = b.runner.progress.running) : Sound { b with runner } :=
  ⟨hs.free, hs.ready, hs.turns, h.trans hs.running, hs.step⟩

theorem of_ending {b : Bench} (hs : b.Sound) {e : Event} (h : (b.ending? e).isSome = true) :
    ∃ (bench : Bench) (result : Except Failure RunOutcome), b.step e = bench.endRun result := by
  cases hr : b.run with
  | none =>
    rw [ending?, hr] at h
    cases h
  | some run =>
    rcases goesOn_or_ends hs hr e with ⟨now, hnow, -⟩ | hends
    · rw [ending?_eq_none rfl hnow] at h
      cases h
    · exact hends

theorem run_of_going {b : Bench} (hs : b.Sound) {run : Run} (hr : b.run = some run) {e : Event}
    (h : b.ending? e = none) : ∃ now : Run, (b.step e).run = some now := by
  rcases goesOn_or_ends hs hr e with ⟨now, hnow, -⟩ | ⟨bench, result, hends⟩
  · exact ⟨now, hnow⟩
  · cases h.symm.trans (ending?_endRun hr hends)

/-! ## Without a run -/

/-- What an event, or a part of one, makes of a bench without a run, if it does not look at the
runner: no run, and of the runner what `change` says. -/
structure Blind (change : Runner → Runner) (f : Bench → Bench) (b : Bench) : Prop where
  run_eq : (f b).run = none
  frame : ∀ runner : Runner, f { b with runner } = { f b with runner := change runner }

theorem blind_turnOver {b : Bench} (hr : b.run = none) (owner : Owner)
    (result : Except Failure String) : Blind id (·.turnOver owner result) b := by
  constructor
  · cases owner <;> simp [turnOver, runTurnOver, handOn_eq, hr]
  · intro runner
    cases owner <;> simp [turnOver, runTurnOver, handOn_eq, hr]

/-- What becomes of the bench when the holder of the controller is moved. -/
def settle (b : Bench) (e : Event) : Option (Turn × Controller × TurnState) → Bench
  | none => b
  | some (turn, c, .busy activity stages) =>
    { b with
      log := b.entries e ++ b.log, controller := c, holder := some { turn with activity, stages } }
  | some (turn, c, .over result) =>
    turnOver { b with log := b.entries e ++ b.log, controller := c } turn.owner result

theorem step_of_holders {b : Bench} {e : Event} (h : e.isHolders = true) :
    b.step e = b.settle e (b.moving? e) := by
  have hm := b.move e
  generalize b.step e = b' at hm
  cases hm with
  | idle _ moving | busy moving | finish moving =>
    rw [moving]
    rfl
  | wish _ wish => cases h.symm.trans (Event.not_holders_of_wish wish).1
  | _ => cases h

theorem blind_holders {b : Bench} (hr : b.run = none) {e : Event} (h : e.isHolders = true) :
    Blind id (·.step e) b := by
  have hsettle : Blind id (fun b' => b'.settle e (b.moving? e)) b := by
    cases b.moving? e with
    | none => exact ⟨hr, fun _ => rfl⟩
    | some m =>
      obtain ⟨turn, c, activity | result⟩ := m
      · exact ⟨hr, fun _ => rfl⟩
      · have hr' : run { b with log := b.entries e ++ b.log, controller := c } = none := hr
        exact ⟨(blind_turnOver hr' _ _).run_eq, (blind_turnOver hr' _ _).frame⟩
  refine ⟨?_, fun runner => ?_⟩
  · rw [step_of_holders h]
    exact hsettle.run_eq
  · rw [step_of_holders h, step_of_holders h]
    exact hsettle.frame runner

/-- **Without a run, an event that starts none** does not look at the runner, and changes nothing of
it but the wishes. -/
theorem blind_step {b : Bench} (hr : b.run = none) {e : Event} (he : ∀ r, e ≠ .request r) :
    Blind e.wished (·.step e) b := by
  have hwish (change : Runner → Runner) : Blind change (·.control change) b := by
    refine ⟨?_, fun runner => ?_⟩
    · rw [control_of_idle hr]
      exact hr
    · rw [control_of_idle hr]
      exact control_of_idle (b := { b with runner }) hr change
  cases e with
  | request r => exact absurd rfl (he r)
  | pass span => exact ⟨hr, fun _ => rfl⟩
  | pause | resume | stop => exact hwish _
  | queue guest stages =>
    refine ⟨(queue_run _ _ _).trans hr, fun runner => ?_⟩
    simp only [step, queue]
    cases b.holder <;> rfl
  | withdraw guest => exact ⟨hr, fun _ => rfl⟩
  | proceed | wake | answer => exact blind_holders hr rfl
  | decide | poll =>
    refine ⟨?_, fun runner => ?_⟩
    · simp [step, decide, poll, hr]
    · simp [step, decide, poll, hr, Event.wished, Event.wish?]

/-! ## Wishes -/

/-- Two changes of the wishes, one right after the other, are one. -/
theorem control_control (b : Bench) (f g : Runner → Runner) :
    (b.control f).control g = b.control fun r => g (f r) := by
  simp only [control, wakeRun]
  cases b.run with
  | none => simp
  | some run => cases hp : run.phase <;> simp [hp]

/-- After a change of the wishes a run between steps is about to look at them. -/
theorem control_of_run {b : Bench} {run : Run} (hr : b.run = some run) (hp : run.phase ≠ .working)
    (change : Runner → Runner) :
    b.control change =
      { b with runner := change b.runner, run := some { run with phase := .boundary } } := by
  obtain ⟨plan, cursor, phase⟩ := run
  cases phase with
  | working => exact absurd rfl hp
  | boundary | resting => simp only [control, wakeRun, hr]

/-- A run that looks for wishes and finds none begins its next step, or is completed. -/
theorem not_beginsNoMore {b : Bench} {run now : Run} (hr : b.run = some now)
    (hp : now.phase = .boundary) (calm : b.runner.control = {}) :
    ¬(({} : Account).note b .decide).BeginsNoMore run := by
  intro h
  cases hstep : now.plan.script.steps[now.cursor.stepIndex]? with
  | some step =>
    have hbegun := h.begun
    rw [Account.note_begun rfl, begins?_decide.2 ⟨hr, hp, calm, hstep⟩] at hbegun
    cases hbegun
  | none =>
    have hdecide : b.step .decide = b.endRun (.ok .completed) := by
      simp [step, decide, hr, hp, calm, hstep]
    rcases h.ended _ (Account.ended_of_endRun rfl hr hdecide) with hend | ⟨i, f, -, -, hend⟩
    · cases hend
    · cases hend

/-- No run ends by a wish for a stop alone. -/
theorem ending?_stop (b : Bench) : b.ending? .stop = none := by
  cases hr : b.run with
  | none => exact ending?_of_idle hr .stop
  | some run =>
    have hrun : ∃ now : Run, b.stop.run = some now := by
      simp only [stop, control, wakeRun, hr]
      split <;> exact ⟨_, rfl⟩
    obtain ⟨now, hnow⟩ := hrun
    exact ending?_eq_none rfl hnow

end Bench

/-! ## Threads -/

/-- The bench, and the threads that are between the two writes of a start or of an exit. -/
structure Threads where
  bench : Bench
  /-- how many runs have cleared the running flag, and are still to forget the wishes -/
  leaving : Nat := 0
  /-- the plan of a start that has set the flag, and is still to forget the wishes and to begin its
  run -/
  entering : Option Plan := none

namespace Threads

open Bench

/-- What a thread does at once. -/
inductive Act where
  /-- an event; of a start or of an exit, all up to its last write -/
  | event (e : Event)
  /-- a start makes its last write, and its run begins -/
  | enter
  /-- an exit makes its last write -/
  | forget

/-- The event of an act. -/
def Act.event? : Act → Option Event
  | event e => some e
  | enter | forget => none

/-- A start sets the running flag. -/
def mark (t : Threads) (r : RunRequest) : Threads :=
  match r.plan with
  | .error _ => t
  | .ok plan =>
    if t.bench.runner.progress.running then t
    else
      { t with
        bench := { t.bench with runner := t.bench.runner.markRunning plan }
        entering := some plan }

/-- Any other event.  If the run ends by it, the wishes stay as they are for now. -/
def move (t : Threads) (e : Event) : Threads :=
  let b := t.bench.step e
  if (t.bench.ending? e).isSome then
    { t with
      bench := { b with runner := { b.runner with control := t.bench.runner.control } }
      leaving := t.leaving + 1 }
  else { t with bench := b }

/-- A start forgets the wishes, and its run begins. -/
def enter (t : Threads) : Threads :=
  match t.entering with
  | none => t
  | some plan =>
    { t with
      bench := { t.bench with
        runner := t.bench.runner.resetControl
        run := some { plan, cursor := .start plan.script.iterationCount } }
      entering := none }

/-- An exit forgets the wishes; a run that rests notices, whose wishes ever they were. -/
def forget (t : Threads) : Threads :=
  match t.leaving with
  | 0 => t
  | leaving + 1 => { t with bench := t.bench.control Runner.resetControl, leaving }

def step (t : Threads) : Act → Threads
  | .event (.request r) => t.mark r
  | .event e => t.move e
  | .enter => t.enter
  | .forget => t.forget

def steps (t : Threads) (acts : List Act) : Threads :=
  acts.foldl step t

/-- Nothing has happened yet. -/
def fresh (settings : MotionSettings) : Threads :=
  { bench := .fresh settings }

theorem request_or_other (e : Event) : (∃ r, e = .request r) ∨ ∀ r, e ≠ .request r := by
  cases e with
  | request r => exact .inl ⟨r, rfl⟩
  | _ => exact .inr nofun

theorem step_event {t : Threads} {e : Event} (he : ∀ r, e ≠ .request r) :
    t.step (.event e) = t.move e := by
  cases e with
  | request r => exact absurd rfl (he r)
  | _ => rfl

theorem move_of_ending {t : Threads} {e : Event} (h : (t.bench.ending? e).isSome = true) :
    t.move e = { t with
      bench := { t.bench.step e with
        runner := { (t.bench.step e).runner with control := t.bench.runner.control } }
      leaving := t.leaving + 1 } :=
  if_pos h

theorem move_of_going {t : Threads} {e : Event} (h : t.bench.ending? e = none) :
    t.move e = { t with bench := t.bench.step e } := by
  rw [move, h]
  rfl

theorem mark_of_fault {t : Threads} {r : RunRequest} {f : Failure} (h : r.plan = .error f) :
    t.mark r = t := by
  rw [mark, h]

theorem mark_of_running {t : Threads} (h : t.bench.runner.progress.running = true)
    (r : RunRequest) : t.mark r = t := by
  rw [mark]
  cases r.plan with
  | error f => rfl
  | ok plan => exact if_pos h

theorem mark_of_idle {t : Threads} {r : RunRequest} {plan : Plan} (accepted : r.plan = .ok plan)
    (h : t.bench.runner.progress.running = false) :
    t.mark r = { t with
      bench := { t.bench with runner := t.bench.runner.markRunning plan }
      entering := some plan } := by
  rw [mark, accepted]
  exact if_neg (by rw [h]; exact Bool.false_ne_true)

theorem enter_of_none {t : Threads} (h : t.entering = none) : t.enter = t := by
  rw [enter, h]

theorem forget_of_none {t : Threads} (h : t.leaving = 0) : t.forget = t := by
  rw [forget, h]

theorem forget_of_succ {t : Threads} {n : Nat} (h : t.leaving = n + 1) :
    t.forget = { t with bench := t.bench.control Runner.resetControl, leaving := n } := by
  rw [forget, h]

/-! ## Nothing in between -/

/-- An exit makes its last write. -/
theorem forget_move {t : Threads} (hs : t.bench.Sound) {e : Event}
    (h : (t.bench.ending? e).isSome = true) :
    (t.move e).forget = { t with bench := t.bench.step e } := by
  obtain ⟨bench, result, hstep⟩ := of_ending hs h
  rw [move_of_ending h, hstep]
  rfl

/-- A start makes its last write. -/
theorem enter_mark {t : Threads} {r : RunRequest} {plan : Plan} (accepted : r.plan = .ok plan)
    (h : t.bench.runner.progress.running = false) (hentering : t.entering = none) :
    (t.mark r).enter = { t with bench := t.bench.step (.request r) } := by
  have hstep : t.bench.step (.request r) =
      { t.bench with
        runner := (t.bench.runner.markRunning plan).resetControl
        run := some { plan, cursor := .start plan.script.iterationCount } } := by
    simp [Bench.step, request_of_plan accepted, start, h]
  rw [mark_of_idle accepted h, hstep, hentering]
  rfl

/-- **Without anything in between** an event, with all that belongs to it, is what it is on the
bench. -/
theorem steps_undivided {t : Threads} (hs : t.bench.Sound) (hleaving : t.leaving = 0)
    (hentering : t.entering = none) (e : Event) :
    t.steps [.event e, .enter, .forget] = { t with bench := t.bench.step e } := by
  have hrest {t' : Threads} (hl : t'.leaving = 0) (he : t'.entering = none) :
      t'.enter.forget = t' := by
    rw [enter_of_none he, forget_of_none hl]
  show ((t.step (.event e)).enter).forget = _
  rcases request_or_other e with ⟨r, rfl⟩ | he
  · show ((t.mark r).enter).forget = _
    cases hp : r.plan with
    | error f =>
      rw [mark_of_fault hp, hrest hleaving hentering]
      simp [Bench.step, request_of_fault hp]
    | ok plan =>
      cases hr : t.bench.runner.progress.running with
      | true => rw [mark_of_running hr, hrest hleaving hentering, step_request_of_running hr]
      | false =>
        rw [enter_mark hp hr hentering]
        exact forget_of_none hleaving
  · rw [step_event he]
    cases hending : t.bench.ending? e with
    | none =>
      rw [move_of_going hending]
      exact hrest hleaving hentering
    | some result =>
      have hsome : (t.bench.ending? e).isSome = true := by rw [hending]; rfl
      have hentered : (t.move e).entering = none := by rw [move_of_ending hsome, hentering]
      rw [enter_of_none hentered, forget_move hs hsome]

/-! ## Whatever comes in between -/

/-- **What holds whatever comes in between.** -/
structure Orderly (t : Threads) : Prop where
  /-- if no start is half done, the bench is sound -/
  sound : t.entering = none → t.bench.Sound
  /-- if one is, the flag is set although there is no run yet, and all else is sound -/
  marked : ∀ plan, t.entering = some plan → t.bench.runner.progress.running = true ∧
    t.bench.run = none ∧ Sound { t.bench with runner := t.bench.runner.clearRunning }

namespace Orderly

variable {t : Threads}

theorem of_fresh (settings : MotionSettings) : (fresh settings).Orderly :=
  ⟨fun _ => Sound.of_fresh settings, nofun⟩

theorem mark (h : t.Orderly) (r : RunRequest) : (t.mark r).Orderly := by
  cases hp : r.plan with
  | error f => rwa [mark_of_fault hp]
  | ok plan =>
    cases hrunning : t.bench.runner.progress.running with
    | true => rwa [mark_of_running hrunning]
    | false =>
      rw [mark_of_idle hp hrunning]
      cases hentering : t.entering with
      | some plan' => cases hrunning.symm.trans (h.marked plan' hentering).1
      | none =>
        have hs := h.sound hentering
        have hr : t.bench.run = none := by
          have hrun := hs.running
          rw [hrunning] at hrun
          simpa using hrun.symm
        refine ⟨nofun, fun _ _ => ⟨rfl, hr, hs.with_runner ?_⟩⟩
        exact hrunning.symm

theorem move (h : t.Orderly) {e : Event} (he : ∀ r, e ≠ .request r) : (t.move e).Orderly := by
  cases hentering : t.entering with
  | none =>
    have hs := (h.sound hentering).step_event e
    cases hending : t.bench.ending? e with
    | none =>
      rw [move_of_going hending]
      exact ⟨fun _ => hs, fun plan hplan => by cases hentering.symm.trans hplan⟩
    | some result =>
      have hsome : (t.bench.ending? e).isSome = true := by rw [hending]; rfl
      rw [move_of_ending hsome]
      exact ⟨fun _ => hs.with_runner rfl, fun plan hplan => by cases hentering.symm.trans hplan⟩
  | some plan =>
    obtain ⟨hrunning, hr, hs⟩ := h.marked plan hentering
    have hblind := blind_step hr he
    have hrunner : (t.bench.step e).runner = e.wished t.bench.runner :=
      congrArg Bench.runner (hblind.frame t.bench.runner)
    rw [move_of_going (ending?_of_idle hr e)]
    refine ⟨fun hnone => (by cases hentering.symm.trans hnone), fun _ _ => ?_⟩
    refine ⟨?_, hblind.run_eq, ?_⟩
    · show (t.bench.step e).runner.progress.running = true
      rw [hrunner, Event.wished_progress]
      exact hrunning
    · have hs' := hs.step_event e
      rw [hblind.frame] at hs'
      refine hs'.with_runner ?_
      show (t.bench.step e).runner.clearRunning.progress.running = _
      rw [Event.wished_progress]
      rfl

theorem enter (h : t.Orderly) : t.enter.Orderly := by
  rw [Threads.enter]
  cases hentering : t.entering with
  | none => exact h
  | some plan =>
    obtain ⟨hrunning, hr, hs⟩ := h.marked plan hentering
    refine ⟨fun _ => ?_, fun _ hnone => by cases hnone⟩
    refine hs.with_run ?_ hrunning ?_ t.bench.reports
    · simp [working, hr]
    · intro run hrun
      cases hrun
      exact fun hworking => by cases hworking

theorem forget (h : t.Orderly) : t.forget.Orderly := by
  cases hleaving : t.leaving with
  | zero => rwa [forget_of_none hleaving]
  | succ leaving =>
    rw [forget_of_succ hleaving]
    refine ⟨fun hnone => ?_, fun plan hplan => ?_⟩
    · have hs : Sound { t.bench with runner := t.bench.runner.resetControl } :=
        (h.sound hnone).with_runner rfl
      exact hs.wakeRun
    · obtain ⟨hrunning, hr, hs⟩ := h.marked plan hplan
      rw [control_of_idle hr]
      exact ⟨hrunning, hr, hs.with_runner rfl⟩

/-- **Every act keeps it.** -/
theorem step (h : t.Orderly) (a : Act) : (t.step a).Orderly := by
  cases a with
  | event e =>
    rcases request_or_other e with ⟨r, rfl⟩ | he
    · exact h.mark r
    · rw [step_event he]
      exact h.move he
  | enter => exact h.enter
  | forget => exact h.forget

theorem steps (h : t.Orderly) (acts : List Act) : (t.steps acts).Orderly := by
  induction acts generalizing t with
  | nil => exact h
  | cons a rest ih => exact ih (h.step a)

/-- While a run is under way no start is half done. -/
theorem entering_eq_none (h : t.Orderly) {run : Run} (hr : t.bench.run = some run) :
    t.entering = none := by
  cases hentering : t.entering with
  | none => rfl
  | some plan => cases hr.symm.trans (h.marked plan hentering).2.1

end Orderly

/-! ## While no exit is half done -/

/-- **A run is under way, and no start and no exit is half done.** -/
structure Alone (t : Threads) : Prop where
  sound : t.bench.Sound
  running : t.bench.run.isSome = true
  leaving : t.leaving = 0
  entering : t.entering = none

theorem Orderly.alone {t : Threads} (h : t.Orderly) {run : Run} (hr : t.bench.run = some run)
    (hleaving : t.leaving = 0) : t.Alone := by
  have hentering := h.entering_eq_none hr
  exact ⟨h.sound hentering, by rw [hr]; rfl, hleaving, hentering⟩

/-- An event that does not end the run is what it is on the bench. -/
theorem Alone.step_event {t : Threads} (h : t.Alone) {e : Event}
    (going : t.bench.ending? e = none) :
    t.step (.event e) = { t with bench := t.bench.step e } ∧ (t.step (.event e)).Alone := by
  have hstep : t.step (.event e) = { t with bench := t.bench.step e } := by
    rcases request_or_other e with ⟨r, rfl⟩ | he
    · have hrunning := h.sound.running.trans h.running
      rw [step_request_of_running hrunning]
      exact mark_of_running hrunning r
    · rw [Threads.step_event he, move_of_going going]
  obtain ⟨run, hr⟩ := Option.isSome_iff_exists.1 h.running
  obtain ⟨now, hnow⟩ := run_of_going h.sound hr going
  refine ⟨hstep, ?_⟩
  rw [hstep]
  exact ⟨h.sound.step_event e, by rw [hnow]; rfl, h.leaving, h.entering⟩

/-- An act, noted: starts and exits do not concern the run under way. -/
def watch (s : Threads × Account) (a : Act) : Threads × Account :=
  (s.1.step a,
    match a with
    | .event e => s.2.note s.1.bench e
    | .enter | .forget => s.2)

/-- The account of the run under way, along a sequence of acts. -/
def account (t : Threads) (acts : List Act) : Account :=
  (acts.foldl watch (t, {})).2

/-- How many of the acts take the run further. -/
def advancesIn (t : Threads) : List Act → Nat
  | [] => 0
  | a :: acts => ((a.event?.any t.bench.advances).toNat) + (t.step a).advancesIn acts

theorem ended_foldl_watch {s : Threads × Account} (h : s.2.ended.isSome = true) (acts : List Act) :
    (acts.foldl watch s).2 = s.2 := by
  induction acts generalizing s with
  | nil => rfl
  | cons a rest ih =>
    have hnote : (watch s a).2 = s.2 := by
      cases a with
      | event e => exact Account.note_of_ended h s.1.bench e
      | enter | forget => rfl
    rw [List.foldl_cons, ih (by rwa [hnote]), hnote]

/-- The events among acts. -/
def events (acts : List Act) : List Event :=
  acts.filterMap Act.event?

/-- **While no exit is half done, a run under way is as on the bench**: the same is noted of it, and
until it ends the bench is the same. -/
theorem watch_eq {t : Threads} (h : t.Alone) {a : Account} (active : a.ended = none)
    (acts : List Act) :
    (acts.foldl watch (t, a)).2 = ((events acts).foldl Bench.watch (t.bench, a)).2 ∧
      ((acts.foldl watch (t, a)).2.ended = none →
        t.steps acts = { t with bench := t.bench.steps (events acts) } ∧
          t.advancesIn acts = t.bench.advancesIn (events acts)) := by
  induction acts generalizing t a with
  | nil => exact ⟨rfl, fun _ => ⟨rfl, rfl⟩⟩
  | cons act rest ih =>
    rw [List.foldl_cons, show t.steps (act :: rest) = (t.step act).steps rest from rfl, advancesIn]
    cases act with
    | enter =>
      have hstep : t.step .enter = t := enter_of_none h.entering
      rw [watch, hstep, show events (.enter :: rest) = events rest from rfl]
      simpa [Act.event?] using ih h active
    | forget =>
      have hstep : t.step .forget = t := forget_of_none h.leaving
      rw [watch, hstep, show events (.forget :: rest) = events rest from rfl]
      simpa [Act.event?] using ih h active
    | event e =>
      have hnote := Account.note_ended active t.bench e
      rw [watch, show events (.event e :: rest) = e :: events rest from rfl, List.foldl_cons,
        Bench.watch]
      cases hending : t.bench.ending? e with
      | some result =>
        -- with its end the account is closed
        have hclosed : (a.note t.bench e).ended.isSome = true := by rw [hnote, hending]; rfl
        rw [ended_foldl_watch hclosed, Bench.ended_foldl_watch hclosed]
        refine ⟨rfl, fun hactive => ?_⟩
        rw [hactive] at hclosed
        cases hclosed
      | none =>
        obtain ⟨hstep, halone⟩ := h.step_event hending
        rw [hstep] at halone ⊢
        obtain ⟨hsame, hlater⟩ := ih halone (hnote.trans hending)
        refine ⟨hsame, fun hactive => ?_⟩
        obtain ⟨hsteps, hadvances⟩ := hlater hactive
        exact ⟨hsteps, congrArg ((t.bench.advances e).toNat + ·) hadvances⟩

/-! ## A wish for a stop -/

/-- A run that is to stop ends when it has been taken further often enough. -/
theorem ended_of_stopping {b : Bench} {now : Run} (h : Stopping b now) {events : List Event}
    (enough : b.stopDebt ≤ b.advancesIn events) (a : Account) :
    (events.foldl Bench.watch (b, a)).2.ended.isSome = true := by
  refine ended_of_advances (fun b => ∃ now : Run, Stopping b now) stopDebt (fun _ => True) ?_ ?_
    ⟨now, h⟩ (fun _ _ => trivial) enough a
  · rintro b e - ⟨now, hnow⟩
    exact hnow.step e
  · rintro b -
    rw [stopDebt]
    split <;> omega

/-- **A run heeds a wish for a stop**, whatever comes in between afterwards. -/
structure HeedsStop (t : Threads) (run : Run) : Prop where
  /-- no step begins any more, and it ends as stopped, or with the failure of the step under way -/
  stopped : ∀ later : List Act, ((t.step (.event .stop)).account later).BeginsNoMore run
  /-- it ends when it has been taken further often enough -/
  ends : ∃ n : Nat, ∀ later : List Act, n ≤ (t.step (.event .stop)).advancesIn later →
    ((t.step (.event .stop)).account later).ended.isSome = true
  /-- which is always possible -/
  goes : ∀ later : List Act, ((t.step (.event .stop)).account later).ended = none →
    ∃ (span : Nat) (e : Event), e.undisturbed = true ∧
      (((t.step (.event .stop)).steps later).step (.event (.pass span))).bench.advances e = true

theorem heedsStop_of_alone {t : Threads} (h : t.Alone) {run : Run} (hr : t.bench.run = some run) :
    t.HeedsStop run := by
  obtain ⟨now, hstopping, position⟩ := Stopping.of_stop h.sound hr
  obtain ⟨hstep, halone⟩ := h.step_event t.bench.ending?_stop
  have hbench : (t.step (.event .stop)).bench = t.bench.stop := congrArg Threads.bench hstep
  have hwinding (events : List Event) :
      Winding run (events.foldl Bench.watch (t.bench.stop, {})) :=
    (Winding.start hstopping.sound hstopping.run_eq position).stopping hstopping.stop events
  have hsame (later : List Act) := watch_eq halone (a := {}) rfl later
  rw [hbench] at hsame
  refine ⟨fun later => ?_, ⟨t.bench.stop.stopDebt, fun later enough => ?_⟩, fun later active => ?_⟩
  · rw [account, (hsame later).1]
    exact (hwinding (events later)).noMore
  · cases hended : ((t.step (.event .stop)).account later).ended with
    | some result => rfl
    | none =>
      -- as long as it has not ended, it has been taken further as often as on the bench
      rw [((hsame later).2 hended).2] at enough
      have hend := ended_of_stopping hstopping enough {}
      rw [← (hsame later).1] at hend
      exact hended ▸ hend
  · have hsteps := ((hsame later).2 active).1
    rw [account, (hsame later).1] at active
    obtain ⟨run', hr', -⟩ := (hwinding (events later)).underWay active
    rw [foldl_watch_fst] at hr'
    obtain ⟨span, e, hundisturbed, hadvances⟩ :=
      exists_advance (hstopping.sound.steps (events later)) hr'
    refine ⟨span, e, hundisturbed, ?_⟩
    have hpass : (t.bench.stop.steps (events later)).ending? (.pass span) = none :=
      ending?_eq_none rfl hr'
    have hmove : ({ t.step (.event .stop) with
          bench := t.bench.stop.steps (events later) } : Threads).step (.event (.pass span)) = _ :=
      move_of_going hpass
    rw [hsteps, hmove]
    exact hadvances

/-- **A wish for a stop is lost without a trace** if an exit makes its last write after it. -/
theorem forget_of_stop {t : Threads} (h : 0 < t.leaving) :
    (t.step (.event .stop)).step .forget = t.step .forget := by
  obtain ⟨n, hleaving⟩ := Nat.exists_eq_add_one.2 h
  have hstep : t.step (.event .stop) = { t with bench := t.bench.stop } :=
    move_of_going t.bench.ending?_stop
  have hforget : (t.step (.event .stop)).forget =
      { t with bench := t.bench.stop.control Runner.resetControl, leaving := n } := by
    rw [hstep]
    exact forget_of_succ hleaving
  show (t.step (.event .stop)).forget = t.forget
  rw [hforget, forget_of_succ hleaving, stop, control_control]
  rfl

/-- A run between steps that can be made to lose a wish for a stop does not heed it: it begins its
next step, or is completed if there is none. -/
theorem not_heedsStop {t : Threads} (h : 0 < t.leaving) {run : Run} (hr : t.bench.run = some run)
    (hp : run.phase ≠ .working) : ¬t.HeedsStop run := by
  intro hheeds
  obtain ⟨n, hleaving⟩ := Nat.exists_eq_add_one.2 h
  have hforget : (t.step .forget).bench =
      { t.bench with
        runner := t.bench.runner.resetControl, run := some { run with phase := .boundary } } := by
    show t.forget.bench = _
    rw [forget_of_succ hleaving, control_of_run hr hp]
  have hnote := hheeds.stopped [.forget, .event .decide]
  have haccount : (t.step (.event .stop)).account [.forget, .event .decide] =
      ({} : Account).note (t.step .forget).bench .decide := by
    rw [← forget_of_stop h]
    rfl
  rw [haccount, hforget] at hnote
  exact not_beginsNoMore rfl rfl rfl hnote

/-- **When a wish for a stop is heeded.**  Starts and exits are made one write at a time, and
whatever has come in between, a run is under way.  If no run before it is still to forget the
wishes, it heeds a wish for a stop.  But if one is, that can come right after the wish, and then it
is as if nobody had wished for it. -/
theorem stop_heeded {settings : MotionSettings} {before : List Act} {run : Run}
    (hr : ((fresh settings).steps before).bench.run = some run) :
    let t := (fresh settings).steps before
    (t.leaving = 0 → t.HeedsStop run) ∧
      (0 < t.leaving → (t.step (.event .stop)).step .forget = t.step .forget ∧
        (run.phase ≠ .working → ¬t.HeedsStop run)) := by
  intro t
  have horderly : t.Orderly := (Orderly.of_fresh settings).steps before
  exact ⟨fun h => heedsStop_of_alone (horderly.alone hr h) hr,
    fun h => ⟨forget_of_stop h, not_heedsStop h hr⟩⟩

/-- A script that has no steps, and one that has a single one. -/
def marking (steps : Nat) : RunRequest where
  script := { steps := List.replicate steps .mark }
  left := some (.new "")

/-- A run ends, and while it does the next one is started. -/
def crossing : List Act :=
  [.event (.request (marking 0)), .enter, .event .decide, .event (.request (marking 1))]

/-- The exit makes its last write while the start is half done. -/
theorem stop_heeded_crossing :
    ∃ run : Run, ((fresh {}).steps (crossing ++ [.forget, .enter])).bench.run = some run ∧
      ((fresh {}).steps (crossing ++ [.forget, .enter])).leaving = 0 ∧
      ((fresh {}).steps (crossing ++ [.forget, .enter])).HeedsStop run := by
  have hr : ((fresh {}).steps (crossing ++ [.forget, .enter])).bench.run = some _ := rfl
  exact ⟨_, hr, rfl, (stop_heeded hr).1 rfl⟩

/-- **A run that goes on after it was told to stop**: the exit of the run before makes its last
write after the wish, and so the step is begun, and the run is completed. -/
theorem stop_lost :
    let t := (fresh {}).steps (crossing ++ [.enter])
    let later : List Act := [.forget, .event .decide, .event .decide]
    t.bench.run.isSome = true ∧ t.bench.runner.progress.running = true ∧
      ((t.step (.event .stop)).account later).begun = [0] ∧
      ((t.step (.event .stop)).account later).ended = some (.ok .completed) :=
  ⟨rfl, rfl, rfl, rfl⟩

end Threads

end Stylus
