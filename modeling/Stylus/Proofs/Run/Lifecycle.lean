import Stylus.Proofs.Run.Moves

/-!
# The life of runs

Runs start and end.  What everyone is told of them is kept in several places, which starts, refused
starts, wishes and ends write to; it always agrees with what has happened.

* `Bench.Happening` — a run has started, or has ended;
* `Bench.happenings` — what happens to runs along a sequence of events;
* `Bench.SameButWishes` — two benches that differ in the wishes only, while there is no run;
* `Bench.Lifecycle` — how a bench and what has happened to its runs agree;
* `Bench.lifecycle` — they always do.

That a run has been started rules out another start until it has ended, so starts and ends take
turns; the invariant follows from the three things that an event can be to the life of runs
(`LifeMove`).
-/

set_option autoImplicit false

namespace Stylus

namespace Bench

/-! ## What happens to runs -/

/-- What happens to runs. -/
inductive Happening where
  | started (plan : Plan)
  | ended (result : Except Failure RunOutcome)

namespace Happening

/-- A run has started. -/
def isStart : Happening → Bool
  | started _ => true
  | ended _ => false

/-- The plan of a run that has started. -/
def plan? : Happening → Option Plan
  | started plan => some plan
  | ended _ => none

/-- The failure that a run has ended with. -/
def error? : Happening → Option Failure
  | started _ => none
  | ended result => failure? result

end Happening

/-- What happens to runs by an event: one starts when its request is accepted, and ends when its
result is told. -/
def happening? (b : Bench) : Event → Option Happening
  | .request r =>
    match r.plan, b.request r with
    | .ok plan, .ok _ => some (.started plan)
    | _, _ => none
  | e => (b.ending? e).map .ended

/-- What happens to runs along a sequence of events. -/
def happenings (b : Bench) : List Event → List Happening
  | [] => []
  | e :: events => (b.happening? e).toList ++ (b.step e).happenings events

/-- Starts and ends take turns, beginning with an end if a run is under way before. -/
def Happening.Alternate (running : Bool) : List Happening → Prop
  | [] => True
  | h :: later => h.isStart = !running ∧ Alternate h.isStart later

/-- The bench with other wishes. -/
def withControl (b : Bench) (control : Control) : Bench :=
  { b with runner := { b.runner with control } }

/-- The same bench, apart from wishes that concern no run. -/
def SameButWishes (b b' : Bench) : Prop :=
  b' = b ∨ b.run = none ∧ ∃ control : Control, b' = b.withControl control

/-- **How a bench and what has happened to its runs agree.** -/
structure Lifecycle (b : Bench) (past : List Happening) : Prop where
  /-- starts and ends take turns, so there is never more than one run -/
  alternate : Happening.Alternate false past
  /-- a run is under way if the last thing that has happened is its start -/
  run : b.run.map Run.plan = past.getLast?.bind Happening.plan?
  running : b.runner.progress.running = past.getLast?.any Happening.isStart
  idle : b.runner.status = .idle ↔ past.getLast?.any Happening.isStart = false
  /-- the script is that of the last start -/
  script : b.runner.progress.script =
    (past.filterMap Happening.plan?).getLast?.map fun plan => plan.script.name
  /-- the failure is that of the last end, unless there was a start since -/
  lastError : b.runner.progress.lastError = past.getLast?.bind Happening.error?
  /-- a run is started only while there is none, and from nothing but its plan -/
  accepted : ∀ (r : RunRequest) (b' : Bench), b.request r = .ok b' →
    b.run = none ∧ ∃ plan : Plan, r.plan = .ok plan ∧
      b' = { b with
        runner.control := {}
        runner.progress := { running := true, script := some plan.script.name,
                             iterations := plan.script.iterationCount }
        run := some { plan, cursor := .start plan.script.iterationCount } }
  /-- a request that is refused changes nothing -/
  refused : ∀ (r : RunRequest) (f : Failure), b.request r = .error f →
    (f = .runActive ∧ b.run.isSome = true ∨ ∃ side : Side, f = .missingLayout side) ∧
      b.step (.request r) = b
  /-- what is wished for while there is no run concerns no later one -/
  strays : b.run = none → ∀ calls : List Event, (∀ e ∈ calls, e.wish?.isSome = true) →
    ∀ later : List Event,
      SameButWishes (b.steps later) ((b.steps calls).steps later) ∧
        (b.steps calls).happenings later = b.happenings later

/-! ## Requests -/

/-- The only failure of a plan. -/
theorem plan_error {r : RunRequest} {f : Failure} (h : r.plan = .error f) :
    ∃ side : Side, f = .missingLayout side := by
  rw [RunRequest.plan] at h
  grind

theorem request_refused {b : Bench} (hs : b.Sound) {r : RunRequest} {f : Failure}
    (h : b.request r = .error f) :
    (f = .runActive ∧ b.run.isSome = true ∨ ∃ side : Side, f = .missingLayout side) ∧
      b.step (.request r) = b := by
  refine ⟨?_, by simp only [step, h]⟩
  cases hp : r.plan with
  | error g =>
    rw [request_of_fault hp] at h
    cases h
    exact .inr (plan_error hp)
  | ok plan =>
    rw [request_of_plan hp, start] at h
    split at h
    · rename_i running
      cases h
      rw [hs.running] at running
      exact .inl ⟨rfl, running⟩
    · cases h

theorem request_accepted {b b' : Bench} (hs : b.Sound) {r : RunRequest} (h : b.request r = .ok b') :
    b.run = none ∧ ∃ plan : Plan, r.plan = .ok plan ∧
      b' = { b with
        runner.control := {}
        runner.progress := { running := true, script := some plan.script.name,
                             iterations := plan.script.iterationCount }
        run := some { plan, cursor := .start plan.script.iterationCount } } := by
  cases hp : r.plan with
  | error g =>
    rw [request_of_fault hp] at h
    cases h
  | ok plan =>
    rw [request_of_plan hp, start] at h
    split at h
    · cases h
    · rename_i running
      cases h
      rw [hs.running] at running
      exact ⟨by simpa using running, plan, rfl, rfl⟩

/-! ## What an event is to the life of runs -/

/-- **An event leaves the run as it is, starts one, or ends it.** -/
inductive LifeMove (b b' : Bench) : Option Happening → Prop where
  | goesOn (run : b'.run.map Run.plan = b.run.map Run.plan)
      (script : b'.runner.progress.script = b.runner.progress.script)
      (lastError : b'.runner.progress.lastError = b.runner.progress.lastError) : LifeMove b b' none
  | starts {plan : Plan} (idle : b.run = none) (run : b'.run.map Run.plan = some plan)
      (script : b'.runner.progress.script = some plan.script.name)
      (lastError : b'.runner.progress.lastError = none) : LifeMove b b' (some (.started plan))
  | ends {result : Except Failure RunOutcome} (active : b.run.isSome = true) (run : b'.run = none)
      (script : b'.runner.progress.script = b.runner.progress.script)
      (lastError : b'.runner.progress.lastError = failure? result) :
      LifeMove b b' (some (.ended result))

theorem happening?_of_ne_request {b : Bench} {e : Event} (h : ∀ r, e ≠ .request r) :
    b.happening? e = (b.ending? e).map .ended := by
  cases e with
  | request r => exact absurd rfl (h r)
  | _ => rfl

theorem happening?_request_of_error {b : Bench} {r : RunRequest} {f : Failure}
    (h : b.request r = .error f) : b.happening? (.request r) = none := by
  rw [happening?, h]
  split
  · rename_i h'
    cases h'
  · rfl

theorem happening?_request_of_ok {b b' : Bench} {r : RunRequest} {plan : Plan}
    (h : b.request r = .ok b') (hp : r.plan = .ok plan) :
    b.happening? (.request r) = some (.started plan) := by
  simp only [happening?, h, hp]

/-- A request, accepted or refused, in the life of runs. -/
theorem lifeMove_request {b : Bench} (hs : b.Sound) (r : RunRequest) :
    LifeMove b (b.step (.request r)) (b.happening? (.request r)) := by
  cases h : b.request r with
  | error f =>
    rw [happening?_request_of_error h, (request_refused hs h).2]
    exact .goesOn rfl rfl rfl
  | ok b' =>
    obtain ⟨idle, plan, hp, hb'⟩ := request_accepted hs h
    have hstep : b.step (.request r) = b' := by simp only [step, h]
    rw [happening?_request_of_ok h hp, hstep, hb']
    exact .starts idle rfl rfl rfl

/-- An event while a run is under way, in the life of runs. -/
theorem lifeMove_active {b : Bench} (hs : b.Sound) {run : Run} (hr : b.run = some run) {e : Event}
    (h : ∀ r, e ≠ .request r) : LifeMove b (b.step e) (b.happening? e) := by
  have hm := runMove hs hr e
  rw [happening?_of_ne_request h]
  generalize hstep : b.step e = b' at hm
  -- either the run is still there, or the event ends it
  have goesOn {now : Run} (hr' : b'.run = some now) (plan : now.plan = run.plan)
      (script : b'.runner.progress.script = b.runner.progress.script)
      (lastError : b'.runner.progress.lastError = b.runner.progress.lastError) :
      LifeMove b b' ((b.ending? e).map .ended) := by
    rw [ending?_eq_none hstep hr']
    exact .goesOn (by rw [hr', hr, Option.map_some, Option.map_some, plan]) script lastError
  have ends {bench : Bench} {result : Except Failure RunOutcome} (hend : b' = bench.endRun result)
      (runner : bench.runner = b.runner) : LifeMove b b' ((b.ending? e).map .ended) := by
    rw [ending?_endRun hr (hstep.trans hend), Option.map_some, hend]
    refine .ends (by rw [hr]; rfl) rfl ?_ rfl
    rw [← runner]
    rfl
  cases hm with
  | stays run_eq runner =>
    refine goesOn run_eq rfl ?_ ?_
    · rw [runner, Event.wished_progress]
    · rw [runner, Event.wished_progress]
  | wakes resting run_eq runner =>
    refine goesOn run_eq rfl ?_ ?_
    · rw [runner, Event.wished_progress]
    · rw [runner, Event.wished_progress]
  | rests => exact goesOn rfl rfl rfl rfl
  | begins =>
    refine goesOn (queue_run _ _ _) rfl ?_ ?_
    · rw [queue_runner]
    · rw [queue_runner]
  | does => exact goesOn rfl rfl rfl rfl
  | refused => exact ends rfl rfl
  | @passes _ bench working runner =>
    refine goesOn rfl rfl ?_ ?_
    · rw [← runner]; rfl
    · rw [← runner]; rfl
  | fails working runner => exact ends rfl runner
  | stopped => exact ends rfl rfl
  | completed => exact ends rfl rfl

/-- Without a run, an event that starts none can change no more of the runner than the wishes. -/
theorem idle_step {b : Bench} (hs : b.Sound) (hr : b.run = none) {e : Event}
    (h : ∀ r, e ≠ .request r) :
    (b.step e).run = none ∧ (b.step e).runner.progress = b.runner.progress := by
  have hm := b.move e
  generalize b.step e = b' at hm
  have begins {run : Run} {step : Step} (hb : b.begins? .decide = some (run, step)) : False := by
    have hr' := (begins?_decide.mp hb).1
    rw [hr] at hr'
    cases hr'
  cases hm with
  | idle => exact ⟨hr, rfl⟩
  | pass => exact ⟨hr, rfl⟩
  | start => exact absurd rfl (h _)
  | @wish _ change wish =>
    rw [control_of_idle hr]
    refine ⟨hr, ?_⟩
    have hwished : change b.runner = e.wished b.runner := by rw [Event.wished, wish]
    rw [hwished, Event.wished_progress]
  | poll =>
    rw [wakeRun_of_idle hr]
    exact ⟨hr, rfl⟩
  | queue => exact ⟨by rw [queue_run, hr], by rw [queue_runner]⟩
  | withdraw => exact ⟨hr, rfl⟩
  | busy => exact ⟨hr, rfl⟩
  | @finish _ turn c result moving =>
    have owner : turn.owner ≠ .run := by
      intro ho
      obtain ⟨⟨run, hr', -⟩, -⟩ := hs.holder_run (moving?_eq_some.mp moving).1 ho
      rw [hr] at hr'
      cases hr'
    rw [turnOver_guest owner, handOn_eq]
    exact ⟨hr, rfl⟩
  | stopped run_eq => rw [hr] at run_eq; cases run_eq
  | rest run_eq => rw [hr] at run_eq; cases run_eq
  | completed run_eq => rw [hr] at run_eq; cases run_eq
  | takeTurn hb => exact (begins hb).elim
  | takeDone hb => exact (begins hb).elim
  | takeFailed hb => exact (begins hb).elim

theorem ending?_of_idle {b : Bench} (hr : b.run = none) (e : Event) : b.ending? e = none := by
  rw [ending?, hr]

/-- An event while there is no run, in the life of runs. -/
theorem lifeMove_idle {b : Bench} (hs : b.Sound) (hr : b.run = none) {e : Event}
    (h : ∀ r, e ≠ .request r) : LifeMove b (b.step e) (b.happening? e) := by
  obtain ⟨run, progress⟩ := idle_step hs hr h
  rw [happening?_of_ne_request h, ending?_of_idle hr]
  exact .goesOn (by rw [run, hr]) (by rw [progress]) (by rw [progress])

/-- **What an event is to the life of runs.** -/
theorem lifeMove {b : Bench} (hs : b.Sound) (e : Event) :
    LifeMove b (b.step e) (b.happening? e) := by
  cases e with
  | request r => exact lifeMove_request hs r
  | _ =>
    cases hr : b.run with
    | none => exact lifeMove_idle hs hr (by simp)
    | some run => exact lifeMove_active hs hr (by simp)

/-! ## Wishes that concern no run -/

theorem turnOver_withControl {b : Bench} (hr : b.run = none) (control : Control) (owner : Owner)
    (result : Except Failure String) :
    (b.withControl control).turnOver owner result =
      (b.turnOver owner result).withControl control := by
  cases owner <;> simp [turnOver, runTurnOver, handOn_eq, withControl, hr]

theorem goOn_withControl {b : Bench} (hr : b.run = none) (control : Control) (turn : Turn)
    (answer : String) (stages : List Stage) :
    (b.withControl control).goOn turn answer stages =
      (b.goOn turn answer stages).withControl control := by
  have hcontroller : (b.withControl control).controller = b.controller := rfl
  have hnow : (b.withControl control).now = b.now := rfl
  rw [goOn, goOn, hcontroller, hnow]
  rcases Turn.goOn b.controller b.now answer stages with ⟨activity, rest⟩ | result
  · rfl
  · exact turnOver_withControl hr control turn.owner result

theorem record_withControl (b : Bench) (control : Control) (owner : Owner) (ask : Ask)
    (accepted : Bool) :
    (b.withControl control).record owner ask accepted =
      (b.record owner ask accepted).withControl control := by
  cases ask <;> rfl

theorem answer_withControl {b : Bench} (hr : b.run = none) (control : Control)
    (a : Except Failure String) :
    (b.withControl control).answer a = (b.answer a).withControl control := by
  have hholder : (b.withControl control).holder = b.holder := rfl
  simp only [answer, hholder]
  cases hb : b.holder with
  | none => rfl
  | some turn =>
    cases ha : turn.activity with
    | asking work =>
      simp only [ha, record_withControl]
      have hrecord : (b.record turn.owner work.ask (isOk a)).run = none := by
        cases work.ask <;> exact hr
      generalize b.record turn.owner work.ask (isOk a) = b' at hrecord
      have hcontroller : (b'.withControl control).controller = b'.controller := rfl
      rw [hcontroller]
      obtain ⟨c, progress⟩ := b'.controller.answered work a
      have hrun : Bench.run { b' with controller := c } = none := hrecord
      rcases progress with work' | result
      · rfl
      · cases result with
        | ok text => exact goOn_withControl hrun control turn text turn.stages
        | error f => exact turnOver_withControl hrun control turn.owner (.error f)
    | _ => simp only [ha]

/-- Without a run, nobody but whoever starts one looks at the wishes. -/
theorem step_withControl {b : Bench} (hr : b.run = none) (control : Control) {e : Event}
    (request : ∀ r, e ≠ .request r) (wish : e.wish? = none) :
    (b.withControl control).step e = (b.step e).withControl control := by
  have hholder : (b.withControl control).holder = b.holder := rfl
  have hr' : (b.withControl control).run = none := hr
  cases e with
  | request r => exact absurd rfl (request r)
  | pause => cases wish
  | resume => cases wish
  | stop => cases wish
  | pass span => rfl
  | queue guest stages =>
    simp only [step, queue, hholder]
    cases b.holder with
    | none => rfl
    | some turn => rfl
  | withdraw guest => rfl
  | proceed =>
    simp only [step, proceed, hholder]
    cases hb : b.holder with
    | none => rfl
    | some turn =>
      cases ha : turn.activity with
      | ready => simp only [ha]; exact goOn_withControl hr control turn "" turn.stages
      | _ => simp only [ha]
  | wake =>
    have hnow : (b.withControl control).now = b.now := rfl
    simp only [step, wake, hholder, hnow]
    cases hb : b.holder with
    | none => rfl
    | some turn =>
      cases ha : turn.activity with
      | sleeping time =>
        simp only [ha]
        split
        · exact goOn_withControl hr control turn "" turn.stages
        · rfl
      | _ => simp only [ha]
  | answer a => exact answer_withControl hr control a
  | decide => simp only [step, decide, hr, hr']
  | poll => simp only [step, poll, hr, hr']

/-- A request overwrites the wishes if it is accepted, and does nothing otherwise. -/
theorem request_withControl (b : Bench) (control : Control) (r : RunRequest) :
    (b.withControl control).request r = b.request r := by
  cases hp : r.plan with
  | error f => rw [request_of_fault hp, request_of_fault hp]
  | ok plan => rw [request_of_plan hp, request_of_plan hp]; rfl

namespace SameButWishes

variable {b b' : Bench}

/-- What is wished for while there is no run makes no other difference. -/
theorem wish (hr : b.run = none) {e : Event} (wish : e.wish?.isSome = true) :
    ∃ control : Control, b.step e = b.withControl control := by
  obtain ⟨change, hchange⟩ := Option.isSome_iff_exists.mp wish
  refine ⟨(change b.runner).control, ?_⟩
  rw [step_of_wish hchange, control_of_idle hr, withControl]
  cases e <;> cases hchange <;> rfl

theorem wishes (hr : b.run = none) {calls : List Event}
    (wishes : ∀ e ∈ calls, e.wish?.isSome = true) : SameButWishes b (b.steps calls) := by
  refine .inr ⟨hr, ?_⟩
  induction calls generalizing b with
  | nil => exact ⟨b.runner.control, rfl⟩
  | cons e calls ih =>
    obtain ⟨control, hstep⟩ := wish hr (wishes e List.mem_cons_self)
    have hr' : (b.withControl control).run = none := hr
    obtain ⟨control', hsteps⟩ := ih hr' fun e' he' => wishes e' (List.mem_cons_of_mem _ he')
    exact ⟨control', by rw [steps_cons, hstep, hsteps]; rfl⟩

theorem request (hr : b.run = none) (control : Control) (r : RunRequest) :
    SameButWishes (b.step (.request r)) ((b.withControl control).step (.request r)) ∧
      (b.withControl control).happening? (.request r) = b.happening? (.request r) := by
  refine ⟨?_, by simp only [happening?, request_withControl]⟩
  simp only [Bench.step, request_withControl]
  cases b.request r with
  | ok b' => exact .inl rfl
  | error f => exact .inr ⟨hr, control, rfl⟩

/-- Benches that differ only in wishes that concern no run go on alike. -/
theorem step (h : SameButWishes b b') (hs : b.Sound) (e : Event) :
    SameButWishes (b.step e) (b'.step e) ∧ b'.happening? e = b.happening? e := by
  rcases h with rfl | ⟨hr, control, rfl⟩
  · exact ⟨.inl rfl, rfl⟩
  · have hr' : (b.withControl control).run = none := hr
    cases hwish : e.wish? with
    | some change =>
      have hisSome : e.wish?.isSome = true := by rw [hwish]; rfl
      have hrequest : ∀ r, e ≠ .request r := by rintro r rfl; cases hwish
      obtain ⟨control₁, h₁⟩ := wish hr hisSome
      obtain ⟨control₂, h₂⟩ := wish hr' hisSome
      rw [h₁, h₂, happening?_of_ne_request hrequest, happening?_of_ne_request hrequest,
        ending?_of_idle hr, ending?_of_idle hr']
      exact ⟨.inr ⟨hr, control₂, rfl⟩, rfl⟩
    | none =>
      cases e with
      | request r => exact request hr control r
      | _ =>
        refine ⟨.inr ⟨(idle_step hs hr (by simp)).1, control, ?_⟩, ?_⟩
        · exact step_withControl hr control (by simp) hwish
        · rw [happening?_of_ne_request (by simp), happening?_of_ne_request (by simp),
            ending?_of_idle hr, ending?_of_idle hr']

theorem steps (h : SameButWishes b b') (hs : b.Sound) (events : List Event) :
    SameButWishes (b.steps events) (b'.steps events) ∧
      b'.happenings events = b.happenings events := by
  induction events generalizing b b' with
  | nil => exact ⟨h, rfl⟩
  | cons e events ih =>
    obtain ⟨hstep, hhappening⟩ := h.step hs e
    obtain ⟨hsteps, hhappenings⟩ := ih hstep (hs.step_event e)
    rw [steps_cons, steps_cons, happenings, happenings, hhappening, hhappenings]
    exact ⟨hsteps, rfl⟩

end SameButWishes

/-! ## All along -/

theorem status_idle {r : Runner} : r.status = .idle ↔ r.progress.running = false := by
  rw [Runner.status]
  split
  · simp_all
  · split
    · simp_all
    · split <;> simp_all

theorem Happening.alternate_append {running : Bool} {past : List Happening} {h : Happening} :
    Alternate running (past ++ [h]) ↔
      Alternate running past ∧ h.isStart = !(past.getLast?.elim running isStart) := by
  induction past generalizing running with
  | nil => simp [Alternate]
  | cons first past ih =>
    have hlast : (first :: past).getLast?.elim running isStart =
        past.getLast?.elim first.isStart isStart := by
      rw [List.getLast?_cons]
      cases past.getLast? <;> rfl
    rw [List.cons_append, Alternate, Alternate, ih, hlast, and_assoc]

/-- What of a bench and what has happened to its runs does not follow from the bench alone. -/
structure Told (b : Bench) (past : List Happening) : Prop where
  alternate : Happening.Alternate false past
  run : b.run.map Run.plan = past.getLast?.bind Happening.plan?
  script : b.runner.progress.script =
    (past.filterMap Happening.plan?).getLast?.map fun plan => plan.script.name
  lastError : b.runner.progress.lastError = past.getLast?.bind Happening.error?

theorem Told.active {b : Bench} {past : List Happening} (h : Told b past) :
    b.run.isSome = past.getLast?.any Happening.isStart := by
  have hrun := congrArg Option.isSome h.run
  rw [Option.isSome_map] at hrun
  rw [hrun]
  cases past.getLast? with
  | none => rfl
  | some last => cases last <;> rfl

theorem Told.event {b : Bench} {past : List Happening} (hs : b.Sound) (h : Told b past)
    (e : Event) : Told (b.step e) (past ++ (b.happening? e).toList) := by
  have hactive := h.active
  have hm := lifeMove hs e
  generalize b.step e = b' at hm
  generalize b.happening? e = happening at hm
  cases hm with
  | goesOn run script lastError =>
    rw [Option.toList_none, List.append_nil]
    exact ⟨h.alternate, run.trans h.run, script.trans h.script, lastError.trans h.lastError⟩
  | @starts plan idle run script lastError =>
    have hlast : past.getLast?.elim false Happening.isStart = false := by
      rw [idle] at hactive
      cases hp : past.getLast? with
      | none => rfl
      | some last => simpa [hp] using hactive.symm
    refine ⟨Happening.alternate_append.mpr ⟨h.alternate, ?_⟩, ?_, ?_, ?_⟩
    · rw [hlast]
      rfl
    · simpa [Happening.plan?] using run
    · simpa [Happening.plan?] using script
    · simpa [Happening.error?] using lastError
  | @ends result active run script lastError =>
    have hlast : past.getLast?.elim false Happening.isStart = true := by
      rw [active] at hactive
      cases hp : past.getLast? with
      | none => simp [hp] at hactive
      | some last => simpa [hp] using hactive.symm
    refine ⟨Happening.alternate_append.mpr ⟨h.alternate, ?_⟩, ?_, ?_, ?_⟩
    · rw [hlast]
      rfl
    · simp [Happening.plan?, run]
    · simpa [Happening.plan?] using script.trans h.script
    · simpa [Happening.error?] using lastError

theorem Told.events {b : Bench} {past : List Happening} (hs : b.Sound) (h : Told b past)
    (events : List Event) : Told (b.steps events) (past ++ b.happenings events) := by
  induction events generalizing b past with
  | nil => rw [happenings, List.append_nil]; exact h
  | cons e events ih =>
    rw [steps_cons, happenings, ← List.append_assoc]
    exact ih (hs.step_event e) (h.event hs e)

/-- **A bench and what has happened to its runs always agree.** -/
theorem lifecycle (settings : MotionSettings) (events : List Event) :
    Lifecycle ((fresh settings).steps events) ((fresh settings).happenings events) := by
  have hs := (Sound.of_fresh settings).steps events
  have hstart : Told (fresh settings) [] := ⟨trivial, rfl, rfl, rfl⟩
  have htold := hstart.events (Sound.of_fresh settings) events
  rw [List.nil_append] at htold
  generalize (fresh settings).steps events = b at *
  have hrunning := hs.running.trans htold.active
  refine ⟨htold.alternate, htold.run, hrunning, ?_, htold.script, htold.lastError,
    fun r b' => request_accepted hs, fun r f => request_refused hs, ?_⟩
  · rw [status_idle, hrunning]
  · intro hr calls wishes later
    exact (SameButWishes.wishes hr wishes).steps hs later

end Bench

end Stylus
