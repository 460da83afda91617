import Stylus.Bench.Basic

/-!
# What one event may do

`Bench.step` has a branch for each kind of event, and most of them end in helpers that branch again.
Everything proved about all schedules starts from the fact that these branches come to the shapes
listed in `Bench.Move`, each with what has to be the case for it.

* `Turn.moved?` — what the holder's turn and the controller come to by an event;
* `Bench.begins?` — the step that a run begins by an event;
* `Bench.entries` — the commands that an event puts on record;
* `Bench.move` — an event does one of the moves, and nothing else;
* `Bench.steps_induction` — what every event keeps, every sequence of events keeps.
-/

set_option autoImplicit false

namespace Stylus

/-! ## The turn in hand

Three kinds of events move the holder of the controller, each while its turn is at something
else. -/

namespace Turn

/-- What a turn comes to when the operation of a stage has come that far; `stages` are those after
it. -/
def after (c : Controller) (now : Nat) (stages : List Stage) : Progress → TurnState
  | .asking work => .busy (.asking work) stages
  | .over (.ok text) => goOn c now text stages
  | .over (.error f) => .over (.error f)

/-- What the controller and a turn in hand come to by an event, if the event moves them. -/
def moved? (turn : Turn) (c : Controller) (now : Nat) :
    Bench.Event → Option (Controller × TurnState)
  | .proceed =>
    match turn.activity with
    | .ready => some (c, goOn c now "" turn.stages)
    | _ => none
  | .wake =>
    match turn.activity with
    | .sleeping time => if time ≤ now then some (c, goOn c now "" turn.stages) else none
    | _ => none
  | .answer a =>
    match turn.activity with
    | .asking work =>
      some ((c.answered work a).1,
        after (c.answered work a).1 now turn.stages (c.answered work a).2)
    | _ => none
  | _ => none

/-- The command that is answered by an event while a turn is in hand, and whether it was
accepted. -/
def answers (turn : Turn) : Bench.Event → List (Gcode × Bool)
  | .answer a =>
    match turn.activity with
    | .asking work =>
      match work.ask with
      | .link => []
      | .command line => [(line, Bench.isOk a)]
    | _ => []
  | _ => []

theorem answers_cases (turn : Turn) (e : Bench.Event) :
    turn.answers e = [] ∨ ∃ s, turn.answers e = [s] := by
  cases e with
  | answer a =>
    simp only [answers]
    split
    · split
      · exact .inl rfl
      · exact .inr ⟨_, rfl⟩
    · exact .inl rfl
  | _ => exact .inl rfl

end Turn

namespace Bench

/-- The turn in hand, with what it and the controller come to by an event that moves them. -/
def moving? (b : Bench) (e : Event) : Option (Turn × Controller × TurnState) :=
  b.holder.bind fun turn => (turn.moved? b.controller b.now e).map fun m => (turn, m)

theorem moving?_eq_some {b : Bench} {e : Event} {turn : Turn} {c : Controller} {s : TurnState} :
    b.moving? e = some (turn, c, s) ↔
      b.holder = some turn ∧ turn.moved? b.controller b.now e = some (c, s) := by
  cases hb : b.holder with
  | none => simp [moving?, hb]
  | some t =>
    simp only [moving?, hb, Option.bind_some, Option.map_eq_some_iff, Prod.mk.injEq,
      Option.some.injEq]
    constructor
    · rintro ⟨m, hm, rfl, rfl⟩
      exact ⟨rfl, hm⟩
    · rintro ⟨rfl, hm⟩
      exact ⟨(c, s), hm, rfl, rfl⟩

/-- The events that may move the holder. -/
def Event.isHolders : Event → Bool
  | .proceed | .wake | .answer _ => true
  | _ => false

theorem moving?_eq_none {e : Event} (h : e.isHolders = false) (b : Bench) : b.moving? e = none := by
  cases hb : b.holder with
  | none => simp [moving?, hb]
  | some turn => cases e <;> simp_all [moving?, Turn.moved?, Event.isHolders]

/-- The commands that an event puts on record: the one answered, if one is. -/
def entries (b : Bench) (e : Event) : List Entry :=
  match b.holder with
  | some turn => (turn.answers e).map fun s => ⟨b.now, turn.owner, s.1, s.2⟩
  | none => []

theorem entries_of_holder {b : Bench} {turn : Turn} (h : b.holder = some turn) (e : Event) :
    b.entries e = (turn.answers e).map fun s => ⟨b.now, turn.owner, s.1, s.2⟩ := by
  rw [entries, h]

theorem entries_eq_nil {b : Bench} {e : Event} (h : ∀ a, e ≠ .answer a) : b.entries e = [] := by
  cases hb : b.holder with
  | none => rw [entries, hb]
  | some turn =>
    rw [entries_of_holder hb]
    cases e with
    | answer a => exact absurd rfl (h a)
    | _ => rfl

/-- The step that a run begins by an event, with the run. -/
def begins? (b : Bench) : Event → Option (Run × Step)
  | .decide =>
    match b.run with
    | some run =>
      if run.phase = .boundary ∧ b.runner.control = {} then
        (run.plan.script.steps[run.cursor.stepIndex]?).map fun step => (run, step)
      else none
    | none => none
  | _ => none

theorem begins?_decide {b : Bench} {run : Run} {step : Step} :
    b.begins? .decide = some (run, step) ↔
      b.run = some run ∧ run.phase = .boundary ∧ b.runner.control = {} ∧
        run.plan.script.steps[run.cursor.stepIndex]? = some step := by
  cases hb : b.run with
  | none => simp [begins?, hb]
  | some r =>
    by_cases h : r.phase = .boundary ∧ b.runner.control = {}
    · simp only [begins?, hb, if_pos h, Option.map_eq_some_iff, Prod.mk.injEq, Option.some.injEq]
      constructor
      · rintro ⟨s, hs, rfl, rfl⟩
        exact ⟨rfl, h.1, h.2, hs⟩
      · rintro ⟨rfl, -, -, hs⟩
        exact ⟨step, hs, rfl, rfl⟩
    · simp only [begins?, hb, if_neg h, Option.some.injEq, reduceCtorEq, false_iff]
      rintro ⟨rfl, h1, h2, -⟩
      exact h ⟨h1, h2⟩

/-- While anything is wished for, no step begins. -/
theorem begins?_of_wish {b : Bench} (h : (b.runner.control.stop || b.runner.control.pause) = true) :
    b.begins? .decide = none := by
  cases hb : b.begins? .decide with
  | none => rfl
  | some begins =>
    obtain ⟨-, -, hc, -⟩ := begins?_decide.mp hb
    simp [hc] at h

/-- The change of the wishes that an event makes. -/
def Event.wish? : Event → Option (Runner → Runner)
  | .pause => some (·.setPause true)
  | .resume => some (·.setPause false)
  | .stop => some Runner.requestStop
  | _ => none

theorem Event.not_holders_of_wish {e : Event} {change : Runner → Runner}
    (h : e.wish? = some change) : e.isHolders = false ∧ e ≠ .decide := by
  cases e <;> simp_all [wish?, isHolders]

/-- A call changes the wishes. -/
theorem step_of_wish {b : Bench} {e : Event} {change : Runner → Runner}
    (h : e.wish? = some change) : b.step e = b.control change := by
  cases e <;> cases h <;> rfl

/-! ## The moves -/

/-- A turn that is queued changes nothing but who holds the controller and who waits for it. -/
theorem queue_frame (b : Bench) (owner : Owner) (stages : List Stage) :
    ∃ (holder : Option Turn) (waiting : List Turn),
      b.queue owner stages = { b with holder := holder, waiting := waiting } := by
  rw [queue]
  split
  · exact ⟨_, _, rfl⟩
  · exact ⟨_, _, rfl⟩

@[simp] theorem queue_controller (b : Bench) (owner : Owner) (stages : List Stage) :
    (b.queue owner stages).controller = b.controller := by
  obtain ⟨holder, waiting, h⟩ := b.queue_frame owner stages
  rw [h]

@[simp] theorem queue_runner (b : Bench) (owner : Owner) (stages : List Stage) :
    (b.queue owner stages).runner = b.runner := by
  obtain ⟨holder, waiting, h⟩ := b.queue_frame owner stages
  rw [h]

@[simp] theorem queue_run (b : Bench) (owner : Owner) (stages : List Stage) :
    (b.queue owner stages).run = b.run := by
  obtain ⟨holder, waiting, h⟩ := b.queue_frame owner stages
  rw [h]

@[simp] theorem queue_log (b : Bench) (owner : Owner) (stages : List Stage) :
    (b.queue owner stages).log = b.log := by
  obtain ⟨holder, waiting, h⟩ := b.queue_frame owner stages
  rw [h]

theorem queue_of_free {b : Bench} (free : b.holder = none) (owner : Owner) (stages : List Stage) :
    b.queue owner stages = { b with holder := some ⟨owner, .ready, stages⟩ } := by
  simp only [queue, free]

theorem queue_of_held {b : Bench} {turn : Turn} (held : b.holder = some turn) (owner : Owner)
    (stages : List Stage) :
    b.queue owner stages = { b with waiting := b.waiting ++ [⟨owner, .ready, stages⟩] } := by
  rw [queue]
  simp only [held]

/-- The bench once the controller is handed on. -/
theorem handOn_eq (b : Bench) :
    b.handOn = { b with holder := b.waiting.head?, waiting := b.waiting.tail } := by
  cases b with
  | mk now controller runner run holder waiting log reports => cases waiting <;> rfl

@[simp] theorem handOn_controller (b : Bench) : b.handOn.controller = b.controller := by
  rw [handOn_eq]

@[simp] theorem runTurnOver_controller (b : Bench) (result : Except Failure String) :
    (b.runTurnOver result).controller = b.controller := by
  simp only [runTurnOver]
  split
  · rfl
  · split <;> rfl

@[simp] theorem turnOver_controller (b : Bench) (owner : Owner) (result : Except Failure String) :
    (b.turnOver owner result).controller = b.controller := by
  cases owner <;> simp [turnOver]

@[simp] theorem wakeRun_controller (b : Bench) : b.wakeRun.controller = b.controller := by
  simp only [wakeRun]
  split
  · split <;> rfl
  · rfl

/-- A run that wakes is where it was; it works afterwards if and only if it did before. -/
theorem wakeRun_eq {b : Bench} {run : Run} (hr : b.run = some run) :
    ∃ phase : Phase, b.wakeRun = { b with run := some { run with phase } } ∧
      (phase = .working ↔ run.phase = .working) := by
  simp only [wakeRun, hr]
  split
  · rename_i time hp
    exact ⟨.boundary, rfl, by simp [hp]⟩
  · refine ⟨run.phase, ?_, Iff.rfl⟩
    cases b
    cases hr
    rfl

/-- **Everything that an event may do to a bench.** -/
inductive Move (b : Bench) : Event → Bench → Prop where
  /-- nothing, and then it is neither the holder's event nor the beginning of a step -/
  | idle {e : Event} (begins : b.begins? e = none) (moving : b.moving? e = none) : Move b e b
  | pass (span : Nat) : Move b (.pass span) { b with now := b.now + span }
  | start {r : RunRequest} {plan : Plan} (accepted : r.plan = .ok plan)
      (idle : b.runner.progress.running = false) :
      Move b (.request r) { b with
        runner := (b.runner.markRunning plan).resetControl
        run := some { plan, cursor := .start plan.script.iterationCount } }
  | wish (e : Event) {change : Runner → Runner} (wish : e.wish? = some change) :
      Move b e (b.control change)
  | poll : Move b .poll b.wakeRun
  | queue (guest : Guest) (stages : List Stage) :
      Move b (.queue guest stages) (b.queue guest.owner stages)
  | withdraw (guest : Guest) : Move b (.withdraw guest) (b.withdraw guest.owner)
  /-- the holder goes on -/
  | busy {e : Event} {turn : Turn} {c : Controller} {activity : Activity} {stages : List Stage}
      (moving : b.moving? e = some (turn, c, .busy activity stages)) :
      Move b e { b with
        log := b.entries e ++ b.log
        controller := c
        holder := some { turn with activity, stages } }
  /-- the holder's turn is over -/
  | finish {e : Event} {turn : Turn} {c : Controller} {result : Except Failure String}
      (moving : b.moving? e = some (turn, c, .over result)) :
      Move b e (turnOver { b with log := b.entries e ++ b.log, controller := c } turn.owner result)
  /-- the run stops -/
  | stopped {run : Run} (run_eq : b.run = some run) (boundary : run.phase = .boundary)
      (stop : b.runner.control.stop = true) (begins : b.begins? .decide = none) :
      Move b .decide (b.endRun (.ok .stopped))
  /-- the run rests -/
  | rest {run : Run} (run_eq : b.run = some run) (boundary : run.phase = .boundary)
      (pause : b.runner.control.pause = true) (begins : b.begins? .decide = none) :
      Move b .decide { b with run := some { run with phase := .resting (b.now + pausePoll) } }
  /-- the run has no step left -/
  | completed {run : Run} (run_eq : b.run = some run) (boundary : run.phase = .boundary)
      (behind : run.plan.script.steps[run.cursor.stepIndex]? = none)
      (begins : b.begins? .decide = none) :
      Move b .decide (b.endRun (.ok .completed))
  /-- the run begins a step that needs the controller -/
  | takeTurn {run : Run} {step : Step} {stages : List Stage}
      (begins : b.begins? .decide = some (run, step))
      (taken : run.cursor.take run.plan b.now step = .turn stages) :
      Move b .decide (queue { b with run := some { run with phase := .working } } .run stages)
  /-- the run does a step that needs nothing -/
  | takeDone {run : Run} {step : Step} {cursor : Cursor}
      (begins : b.begins? .decide = some (run, step))
      (taken : run.cursor.take run.plan b.now step = .done cursor) :
      Move b .decide (b.passStep run cursor)
  /-- the run fails in a step before it asks for the controller -/
  | takeFailed {run : Run} {step : Step} {f : Failure}
      (begins : b.begins? .decide = some (run, step))
      (taken : run.cursor.take run.plan b.now step = .failed f) :
      Move b .decide (b.endRun (.error f))

/-- A move of the holder, as the bench settles it. -/
theorem move_of_goOn {b : Bench} {e : Event} {turn : Turn} {c : Controller} {answer : String}
    {stages : List Stage}
    (moving : b.moving? e = some (turn, c, Turn.goOn c b.now answer stages)) :
    Move b e (goOn { b with log := b.entries e ++ b.log, controller := c } turn answer stages) := by
  rw [goOn]
  split
  · rename_i activity rest h
    exact .busy (h ▸ moving)
  · rename_i result h
    exact .finish (h ▸ moving)

theorem move_proceed (b : Bench) : Move b .proceed b.proceed := by
  rw [proceed]
  split
  · rename_i turn hb
    split
    · rename_i ha
      have moving := moving?_eq_some.mpr ⟨hb, show turn.moved? b.controller b.now .proceed =
        some (b.controller, Turn.goOn b.controller b.now "" turn.stages) by
          simp only [Turn.moved?, ha]⟩
      have h := move_of_goOn moving
      rw [entries_eq_nil (by simp), List.nil_append] at h
      exact h
    · rename_i ha
      refine .idle rfl ?_
      simp only [moving?, hb, Option.bind_some, Option.map_eq_none_iff]
      cases hact : turn.activity <;> simp_all [Turn.moved?]
  · rename_i hb
    exact .idle rfl (by simp [moving?, hb])

theorem move_wake (b : Bench) : Move b .wake b.wake := by
  rw [wake]
  split
  · rename_i turn hb
    split
    · rename_i time ha
      split
      · rename_i ht
        have moving := moving?_eq_some.mpr ⟨hb, show turn.moved? b.controller b.now .wake =
          some (b.controller, Turn.goOn b.controller b.now "" turn.stages) by
            simp only [Turn.moved?, ha, if_pos ht]⟩
        have h := move_of_goOn moving
        rw [entries_eq_nil (by simp), List.nil_append] at h
        exact h
      · rename_i ht
        exact .idle rfl (by simp [moving?, hb, Turn.moved?, ha, ht])
    · refine .idle rfl ?_
      simp only [moving?, hb, Option.bind_some, Option.map_eq_none_iff]
      cases hact : turn.activity <;> simp_all [Turn.moved?]
  · rename_i hb
    exact .idle rfl (by simp [moving?, hb])

/-- Putting an answered command on record, and nothing else, is what `entries` says. -/
theorem record_eq {b : Bench} {turn : Turn} {work : Work} (hb : b.holder = some turn)
    (ha : turn.activity = .asking work) (a : Except Failure String) :
    b.record turn.owner work.ask (isOk a) = { b with log := b.entries (.answer a) ++ b.log } := by
  have h : b.entries (.answer a) =
      match work.ask with
      | .link => []
      | .command line => [⟨b.now, turn.owner, line, isOk a⟩] := by
    simp only [entries, hb, Turn.answers, ha]
    cases work.ask <;> rfl
  rw [h]
  simp only [record]
  cases work.ask <;> rfl

theorem move_answer (b : Bench) (a : Except Failure String) : Move b (.answer a) (b.answer a) := by
  rw [answer]
  split
  · rename_i turn hb
    split
    · rename_i work ha
      rw [record_eq hb ha]
      have moved (c : Controller) (s : TurnState)
          (h : turn.moved? b.controller b.now (.answer a) = some (c, s)) :
          b.moving? (.answer a) = some (turn, c, s) := moving?_eq_some.mpr ⟨hb, h⟩
      dsimp only
      split
      · rename_i c work' h
        exact .busy (moved _ _ (by simp only [Turn.moved?, ha, h, Turn.after]))
      · rename_i c text h
        exact move_of_goOn (moved _ _ (by simp only [Turn.moved?, ha, h, Turn.after]))
      · rename_i c f h
        exact .finish (moved _ _ (by simp only [Turn.moved?, ha, h, Turn.after]))
    · refine .idle rfl ?_
      simp only [moving?, hb, Option.bind_some, Option.map_eq_none_iff]
      cases hact : turn.activity <;> simp_all [Turn.moved?]
  · rename_i hb
    exact .idle rfl (by simp [moving?, hb])

theorem move_decide (b : Bench) : Move b .decide b.decide := by
  have idle : b.moving? .decide = none := moving?_eq_none rfl b
  rw [decide]
  split
  · rename_i run hr
    split
    · rename_i hp
      split
      · rename_i hstop
        exact .stopped hr hp hstop (begins?_of_wish (by simp [hstop]))
      · rename_i hstop
        split
        · rename_i hpause
          exact .rest hr hp hpause (begins?_of_wish (by simp [hpause]))
        · rename_i hpause
          have hc : b.runner.control = {} := by
            cases hcc : b.runner.control with
            | mk pause stop => simp_all
          split
          · rename_i hs
            exact .completed hr hp hs (by simp [begins?, hr, hs])
          · rename_i step hs
            have begins := begins?_decide.mpr ⟨hr, hp, hc, hs⟩
            split
            · rename_i ht
              exact .takeTurn begins ht
            · rename_i ht
              exact .takeDone begins ht
            · rename_i ht
              exact .takeFailed begins ht
    · rename_i hp
      have h : run.phase ≠ .boundary := hp
      exact .idle (by simp [begins?, hr, h]) idle
  · rename_i hr
    exact .idle (by simp [begins?, hr]) idle

theorem move_poll (b : Bench) : Move b .poll b.poll := by
  rw [poll]
  split
  · rename_i run hr
    split
    · split
      · exact .poll
      · exact .idle rfl (moving?_eq_none rfl b)
    · exact .idle rfl (moving?_eq_none rfl b)
  · exact .idle rfl (moving?_eq_none rfl b)

theorem request_of_plan {b : Bench} {r : RunRequest} {plan : Plan} (h : r.plan = .ok plan) :
    b.request r = b.start plan := by
  rw [request, h]
  rfl

theorem request_of_fault {b : Bench} {r : RunRequest} {f : Failure} (h : r.plan = .error f) :
    b.request r = .error f := by
  rw [request, h]
  rfl

theorem move_request (b : Bench) (r : RunRequest) : Move b (.request r) (b.step (.request r)) := by
  have idle : b.moving? (.request r) = none := moving?_eq_none rfl b
  cases hp : r.plan with
  | error f => simpa [step, request_of_fault hp] using Move.idle rfl idle
  | ok plan =>
    cases hr : b.runner.progress.running with
    | true => simpa [step, request_of_plan hp, start, hr] using Move.idle rfl idle
    | false => simpa [step, request_of_plan hp, start, hr] using Move.start hp hr

/-- **An event does one of the moves.** -/
theorem move (b : Bench) (e : Event) : Move b e (b.step e) := by
  cases e with
  | pass span => exact .pass span
  | request r => exact b.move_request r
  | pause =>
    show Move b .pause (b.control (·.setPause true))
    exact .wish .pause rfl
  | resume =>
    show Move b .resume (b.control (·.setPause false))
    exact .wish .resume rfl
  | stop =>
    show Move b .stop (b.control Runner.requestStop)
    exact .wish .stop rfl
  | queue guest stages => exact .queue guest stages
  | withdraw guest => exact .withdraw guest
  | proceed => exact b.move_proceed
  | wake => exact b.move_wake
  | answer a => exact b.move_answer a
  | decide => exact b.move_decide
  | poll => exact b.move_poll

/-! ## Sequences of events -/

/-- A bench on which nothing has happened yet. -/
def fresh (settings : MotionSettings) : Bench :=
  { controller := { settings := settings } }

@[simp] theorem steps_cons (b : Bench) (e : Event) (events : List Event) :
    b.steps (e :: events) = (b.step e).steps events := rfl

theorem steps_append (b : Bench) (before after : List Event) :
    b.steps (before ++ after) = (b.steps before).steps after :=
  List.foldl_append

/-- What every event keeps, every sequence of events keeps. -/
theorem steps_induction {P : Bench → Prop} (keep : ∀ (b : Bench) (e : Event), P b → P (b.step e))
    {b : Bench} (hb : P b) (events : List Event) : P (b.steps events) := by
  induction events generalizing b with
  | nil => exact hb
  | cons e events ih => exact ih (keep b e hb)

end Bench

end Stylus
