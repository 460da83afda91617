import Stylus.Proofs.Bench.Moves

/-!
# Sound benches

`Bench` as a type allows for a run that is in the middle of a step without a turn at the controller,
or for two turns of one run.  `Bench.Sound` says what keeps such benches out, and `Bench.Sound.step`
that no event leads to one.

* `Bench.line` — who has the controller, and who waits for it;
* `Bench.Sound` — the invariant;
* `Bench.Sound.steps` — it holds along every sequence of events;
* `Bench.step_work` — what an event does to the controller and to the operation under way.
-/

set_option autoImplicit false

namespace Stylus

namespace Bench

/-- Who has the controller and who waits for it, the next one first. -/
def line (b : Bench) : List Turn :=
  b.holder.toList ++ b.waiting

/-- A step that needs the controller is under way. -/
def working (b : Bench) : Bool :=
  b.run.any fun run => run.phase = .working

theorem working_iff {b : Bench} :
    b.working = true ↔ ∃ run : Run, b.run = some run ∧ run.phase = .working := by
  simp [working, Option.any_eq_true]

/-- A turn belongs to the run. -/
def isRunTurn (turn : Turn) : Bool :=
  turn.owner = .run

/-- **What holds of every bench that events lead to.** -/
structure Sound (b : Bench) : Prop where
  /-- nobody waits for a free controller -/
  free : b.holder = none → b.waiting = []
  /-- who waits has done nothing yet -/
  ready : ∀ turn ∈ b.waiting, turn.activity = .ready
  /-- the run has one turn while a step that needs the controller is under way, and else none -/
  turns : b.line.countP isRunTurn = b.working.toNat
  /-- what everyone is told of a run being under way is true -/
  running : b.runner.progress.running = b.run.isSome
  /-- a run that works is at a step which needs the controller -/
  step : ∀ run : Run, b.run = some run → run.phase = .working →
    ∃ (now : Nat) (step : Step) (stages : List Stage),
      run.plan.script.steps[run.cursor.stepIndex]? = some step ∧
        run.cursor.take run.plan now step = .turn stages

/-! ## The line

How the operations on the controller change the line of those who use it. -/

theorem line_queue {b : Bench} (free : b.holder = none → b.waiting = []) (owner : Owner)
    (stages : List Stage) : (b.queue owner stages).line = b.line ++ [⟨owner, .ready, stages⟩] := by
  simp only [queue, line]
  cases hb : b.holder with
  | none => simp [free hb]
  | some turn => simp

/-- When a guest no longer wants the controller, the run stays in the line. -/
theorem mem_line_withdraw {b : Bench} (guest : Guest) {turn : Turn} (h : turn ∈ b.line)
    (ho : turn.owner = .run) : turn ∈ (b.withdraw guest.owner).line := by
  rcases List.mem_append.mp h with h | h
  · exact List.mem_append_left _ h
  · refine List.mem_append_right _ (List.mem_filter.mpr ⟨h, ?_⟩)
    cases guest <;> simp [ho, Guest.owner]

theorem line_of_holder {b : Bench} {turn : Turn} (h : b.holder = some turn) :
    b.line = turn :: b.waiting := by
  rw [line, h]
  rfl

theorem wakeRun_line (b : Bench) : b.wakeRun.line = b.line := by
  simp only [wakeRun]
  split
  · split <;> rfl
  · rfl

theorem isRunTurn_guest (guest : Guest) (stages : List Stage) :
    isRunTurn ⟨guest.owner, .ready, stages⟩ = false := by
  cases guest <;> rfl

theorem countP_line_withdraw (b : Bench) (guest : Guest) :
    (b.withdraw guest.owner).line.countP isRunTurn = b.line.countP isRunTurn := by
  have h : ∀ turn : Turn, (isRunTurn turn && !(turn.owner = guest.owner)) = isRunTurn turn := by
    intro turn
    cases guest <;> cases ho : turn.owner <;> simp [isRunTurn, ho, Guest.owner]
  simp only [line, withdraw, List.countP_append, List.countP_filter, decide_not, h]

/-! ## The end of a turn -/

theorem turnOver_run_ok {b : Bench} {run : Run} (h : b.run = some run) (answer : String) :
    b.turnOver .run (.ok answer) = b.handOn.passStep run run.cursor.advance := by
  have h' : b.handOn.run = some run := by rw [handOn_eq, h]
  simp only [turnOver, runTurnOver, h']

theorem turnOver_run_error {b : Bench} {run : Run} (h : b.run = some run) (f : Failure) :
    b.turnOver .run (.error f) = b.handOn.endRun (.error f) := by
  have h' : b.handOn.run = some run := by rw [handOn_eq, h]
  simp only [turnOver, runTurnOver, h']

theorem turnOver_guest {b : Bench} {owner : Owner} (h : owner ≠ .run)
    (result : Except Failure String) :
    b.turnOver owner result = { b.handOn with reports := .turn owner result :: b.reports } := by
  rw [handOn_eq]
  cases owner with
  | run => exact absurd rfl h
  | client n => simp only [turnOver, handOn_eq]
  | operator => simp only [turnOver, handOn_eq]

theorem line_turnOver (b : Bench) (owner : Owner) (result : Except Failure String) :
    (b.turnOver owner result).line = b.waiting := by
  have hand : b.handOn.line = b.waiting := by
    rw [handOn_eq, line]
    cases b.waiting <;> rfl
  cases owner with
  | run =>
    rw [turnOver, runTurnOver]
    split
    · exact hand
    · split <;> exact hand
  | client m => exact hand
  | operator => exact hand

namespace Sound

/-! ## What the invariant says of the holder -/

/-- If the run has a turn, a step of it is under way. -/
theorem working_of_mem {b : Bench} (hs : b.Sound) {turn : Turn} (hm : turn ∈ b.line)
    (ho : turn.owner = .run) : ∃ run : Run, b.run = some run ∧ run.phase = .working := by
  have hpos : 0 < b.line.countP isRunTurn :=
    List.countP_pos_iff.mpr ⟨turn, hm, by simp [isRunTurn, ho]⟩
  rw [hs.turns] at hpos
  refine working_iff.mp ?_
  cases hw : b.working with
  | true => rfl
  | false => simp [hw] at hpos

/-- If the run has the controller, a step of it is under way, and the run does not wait as well. -/
theorem holder_run {b : Bench} (hs : b.Sound) {turn : Turn} (hb : b.holder = some turn)
    (ho : turn.owner = .run) :
    (∃ run : Run, b.run = some run ∧ run.phase = .working) ∧ b.waiting.countP isRunTurn = 0 := by
  have hline := line_of_holder hb
  obtain ⟨run, hr, hp⟩ := hs.working_of_mem (hline ▸ List.mem_cons_self) ho
  refine ⟨⟨run, hr, hp⟩, ?_⟩
  have ht := hs.turns
  simpa [hline, isRunTurn, ho, working, hr, hp] using ht

/-- If the run is not in a step that needs the controller, it has no turn. -/
theorem countP_of_not_working {b : Bench} (hs : b.Sound) (h : b.working = false) :
    b.line.countP isRunTurn = 0 := by
  rw [hs.turns, h]
  rfl

theorem not_working {b : Bench} {run : Run} (hr : b.run = some run) (hp : run.phase ≠ .working) :
    b.working = false := by
  simp [working, hr, hp]

/-! ## Every operation keeps it -/

/-- A bench with another run, no turn of which is in the line. -/
theorem with_run {b : Bench} (hs : b.Sound) (hw : b.working = false) {runner : Runner}
    {run : Option Run}
    (hrun : runner.progress.running = run.isSome) (hidle : ∀ r ∈ run, r.phase ≠ .working)
    (reports : List Report) : Sound { b with runner, run, reports } := by
  refine ⟨hs.free, hs.ready, ?_, hrun, ?_⟩
  · have hn : Bench.working { b with runner, run, reports } = false := by
      cases run with
      | none => rfl
      | some r => simp [Bench.working, hidle r rfl]
    rw [hn]
    exact hs.countP_of_not_working hw
  · rintro r rfl hp
    exact absurd hp (hidle r rfl)

theorem wakeRun {b : Bench} (hs : b.Sound) : b.wakeRun.Sound := by
  rw [Bench.wakeRun]
  split
  · rename_i run hr
    split
    · rename_i time hp
      refine hs.with_run (not_working hr (by simp [hp])) ?_ ?_ b.reports
      · rw [hs.running, hr]
        rfl
      · rintro r ⟨⟩
        simp
    · exact hs
  · exact hs

theorem endRun {b : Bench} (hs : b.Sound) (hw : b.working = false)
    (result : Except Failure RunOutcome) : (b.endRun result).Sound :=
  hs.with_run hw rfl (by rintro r ⟨⟩) _

theorem control {b : Bench} (hs : b.Sound) {e : Event} {change : Runner → Runner}
    (wish : e.wish? = some change) : (b.control change).Sound := by
  have hp : (change b.runner).progress = b.runner.progress := by
    cases e <;> cases wish <;> rfl
  exact wakeRun ⟨hs.free, hs.ready, hs.turns, by rw [hp]; exact hs.running, hs.step⟩

/-- A new turn keeps everything but the number of the run's turns. -/
theorem queue {b : Bench} {owner : Owner} {stages : List Stage}
    (free : b.holder = none → b.waiting = []) (ready : ∀ turn ∈ b.waiting, turn.activity = .ready)
    (turns : List.countP isRunTurn (b.line ++ [⟨owner, .ready, stages⟩]) = b.working.toNat)
    (running : b.runner.progress.running = b.run.isSome)
    (step : ∀ run : Run, b.run = some run → run.phase = .working →
      ∃ (now : Nat) (step : Step) (stages : List Stage),
        run.plan.script.steps[run.cursor.stepIndex]? = some step ∧
          run.cursor.take run.plan now step = .turn stages) :
    (b.queue owner stages).Sound := by
  have hline := line_queue free owner stages
  refine ⟨?_, ?_, ?_, by simpa using running, by simpa using step⟩
  · cases hb : b.holder with
    | none => simp [queue_of_free hb]
    | some turn => simp [queue_of_held hb, hb]
  · cases hb : b.holder with
    | none => simpa [queue_of_free hb] using ready
    | some turn =>
      rw [queue_of_held hb]
      intro turn hm
      rcases List.mem_append.mp hm with hm | hm
      · exact ready turn hm
      · rw [List.mem_singleton.mp hm]
  · rw [hline, turns]
    simp [Bench.working]

theorem queue_guest {b : Bench} (hs : b.Sound) (guest : Guest) (stages : List Stage) :
    (b.queue guest.owner stages).Sound := by
  refine queue hs.free hs.ready ?_ hs.running hs.step
  rw [List.countP_append, List.countP_singleton, isRunTurn_guest, if_neg Bool.false_ne_true,
    Nat.add_zero, hs.turns]

theorem queue_run {b : Bench} (hs : b.Sound) {run : Run} {step : Step} {stages : List Stage}
    (begins : b.begins? .decide = some (run, step))
    (taken : run.cursor.take run.plan b.now step = .turn stages) :
    (Bench.queue { b with run := some { run with phase := .working } } .run stages).Sound := by
  obtain ⟨hr, hp, -, hstep⟩ := begins?_decide.mp begins
  have hw : b.working = false := not_working hr (by simp [hp])
  refine queue hs.free hs.ready ?_ (hs.running.trans (by rw [hr]; rfl)) ?_
  · have hcount : Bench.line { b with run := some { run with phase := .working } } = b.line := rfl
    rw [hcount, List.countP_append, hs.countP_of_not_working hw]
    rfl
  · rintro r ⟨⟩ -
    exact ⟨b.now, step, stages, hstep, taken⟩

theorem withdraw {b : Bench} (hs : b.Sound) (guest : Guest) : (b.withdraw guest.owner).Sound := by
  refine ⟨?_, ?_, ?_, hs.running, hs.step⟩
  · intro hb
    rw [Bench.withdraw, hs.free hb]
    rfl
  · intro turn hm
    exact hs.ready turn (List.mem_filter.mp hm).1
  · rw [countP_line_withdraw]
    exact hs.turns

theorem busy {b : Bench} (hs : b.Sound) {turn : Turn} (hb : b.holder = some turn) (log : List Entry)
    (controller : Controller) (activity : Activity) (stages : List Stage) :
    Sound { b with log, controller, holder := some { turn with activity, stages } } := by
  refine ⟨by simp, hs.ready, ?_, hs.running, hs.step⟩
  have ht := hs.turns
  rw [line_of_holder hb] at ht
  exact ht

/-- Handing the controller on keeps everything but the number of the run's turns, which is that of
the turns that wait. -/
theorem handOn_with {b : Bench} (hs : b.Sound) {runner : Runner} {run : Option Run}
    {log : List Entry} {controller : Controller} {reports : List Report}
    (hturns : b.waiting.countP isRunTurn =
      (Bench.working { b with run }).toNat)
    (hrun : runner.progress.running = run.isSome)
    (hstep : ∀ r : Run, run = some r → r.phase = .working → b.run = some r) :
    Sound { b with
      runner, run, log, controller, reports
      holder := b.waiting.head?, waiting := b.waiting.tail } := by
  have hline : Bench.line { b with
      runner, run, log, controller, reports
      holder := b.waiting.head?, waiting := b.waiting.tail } = b.waiting := by
    rw [line]
    cases b.waiting <;> rfl
  refine ⟨?_, ?_, by rw [hline]; exact hturns, hrun, ?_⟩
  · intro h
    rw [List.head?_eq_none_iff.mp h]
    rfl
  · intro turn hm
    exact hs.ready turn (List.mem_of_mem_tail hm)
  · intro r hr hp
    exact hs.step r (hstep r hr hp) hp

theorem turnOver {b : Bench} (hs : b.Sound) {turn : Turn} (hb : b.holder = some turn)
    (log : List Entry) (controller : Controller) (result : Except Failure String) :
    (Bench.turnOver { b with log, controller } turn.owner result).Sound := by
  by_cases ho : turn.owner = .run
  · obtain ⟨⟨run, hr, -⟩, hcount⟩ := hs.holder_run hb ho
    have hr' : Bench.run { b with log, controller } = some run := hr
    rw [ho]
    cases result with
    | ok answer =>
      rw [turnOver_run_ok hr', handOn_eq]
      refine hs.handOn_with (by rw [hcount]; rfl) ?_ ?_
      · exact hs.running.trans (by rw [hr]; rfl)
      · rintro r ⟨⟩ hp
        cases hp
    | error f =>
      rw [turnOver_run_error hr', handOn_eq]
      exact hs.handOn_with (by rw [hcount]; rfl) rfl (by rintro r ⟨⟩)
  · rw [turnOver_guest ho, handOn_eq]
    refine hs.handOn_with ?_ hs.running (fun r hr _ => hr)
    have ht := hs.turns
    rw [line_of_holder hb, List.countP_cons_of_neg (by simp [isRunTurn, ho])] at ht
    exact ht

theorem move {b b' : Bench} {e : Event} (hs : b.Sound) (h : Move b e b') : b'.Sound := by
  cases h with
  | idle => exact hs
  | pass span => exact ⟨hs.free, hs.ready, hs.turns, hs.running, hs.step⟩
  | start accepted idle =>
    have hn : b.run = none := by
      rw [hs.running] at idle
      simpa using idle
    refine hs.with_run (by simp [Bench.working, hn]) rfl ?_ b.reports
    rintro r ⟨⟩
    simp
  | wish _ wish => exact hs.control wish
  | poll => exact hs.wakeRun
  | queue guest stages => exact hs.queue_guest guest stages
  | withdraw guest => exact hs.withdraw guest
  | busy moving => exact hs.busy (moving?_eq_some.mp moving).1 _ _ _ _
  | finish moving => exact hs.turnOver (moving?_eq_some.mp moving).1 _ _ _
  | stopped run_eq boundary stop => exact hs.endRun (not_working run_eq (by simp [boundary])) _
  | rest run_eq boundary pause =>
    refine hs.with_run (not_working run_eq (by simp [boundary])) ?_ ?_ b.reports
    · exact hs.running.trans (by rw [run_eq]; rfl)
    · rintro r ⟨⟩
      simp
  | completed run_eq boundary behind => exact hs.endRun (not_working run_eq (by simp [boundary])) _
  | takeTurn begins taken => exact hs.queue_run begins taken
  | takeDone begins taken =>
    obtain ⟨hr, hp, -, -⟩ := begins?_decide.mp begins
    refine hs.with_run (not_working hr (by simp [hp])) ?_ ?_ b.reports
    · exact hs.running.trans (by rw [hr]; rfl)
    · rintro r ⟨⟩
      simp
  | takeFailed begins taken =>
    obtain ⟨hr, hp, -, -⟩ := begins?_decide.mp begins
    exact hs.endRun (not_working hr (by simp [hp])) _

/-- **Every event keeps a bench sound.** -/
theorem step_event {b : Bench} (hs : b.Sound) (e : Event) : (b.step e).Sound :=
  hs.move (b.move e)

theorem steps {b : Bench} (hs : b.Sound) (events : List Event) : (b.steps events).Sound :=
  steps_induction (fun _ e h => h.step_event e) hs events

theorem of_fresh (settings : MotionSettings) : (fresh settings).Sound :=
  ⟨fun _ => rfl, fun _ hm => absurd hm List.not_mem_nil, rfl, rfl, by rintro _ ⟨⟩⟩

/-- A bench on which a request is accepted had no run, and is sound again. -/
theorem request {b b' : Bench} (hs : b.Sound) {r : RunRequest} (h : b.request r = .ok b') :
    b'.Sound := by
  have hstep : b.step (.request r) = b' := by simp only [Bench.step, h]
  exact hstep ▸ hs.step_event (.request r)

end Sound

end Bench

/-! ## The operation under way -/

/-- The operation that is under way, if one is. -/
def Activity.work? : Activity → Option Work
  | .asking work => some work
  | .ready | .sleeping _ => none

/-- The operation under way in what a turn has come to. -/
def TurnState.work? : TurnState → Option Work
  | .busy activity _ => activity.work?
  | .over _ => none

theorem Activity.work?_eq_some {activity : Activity} {work : Work} :
    activity.work? = some work ↔ activity = .asking work := by
  cases activity <;> simp [work?]

namespace Bench

/-- The operation that the holder of the controller carries out. -/
def work? (b : Bench) : Option Work :=
  b.holder.bind fun turn => turn.activity.work?

theorem work?_of_holder {b : Bench} {turn : Turn} (h : b.holder = some turn) :
    b.work? = turn.activity.work? := by
  rw [work?, h, Option.bind_some]

/-- Whoever waits has not begun an operation. -/
theorem work?_head {waiting : List Turn} (h : ∀ turn ∈ waiting, turn.activity = .ready) :
    (waiting.head?.bind fun turn => turn.activity.work?) = none := by
  cases waiting with
  | nil => rfl
  | cons turn rest =>
    rw [List.head?_cons, Option.bind_some, h turn List.mem_cons_self]
    rfl

theorem work?_queue (b : Bench) (owner : Owner) (stages : List Stage) :
    (b.queue owner stages).work? = b.work? := by
  cases hb : b.holder with
  | none => rw [queue_of_free hb, work?, work?, hb]; rfl
  | some turn => rw [queue_of_held hb, work?, work?]

theorem work?_wakeRun (b : Bench) : b.wakeRun.work? = b.work? := by
  rw [wakeRun]
  split
  · split <;> rfl
  · rfl

theorem work?_turnOver {b : Bench} (ready : ∀ turn ∈ b.waiting, turn.activity = .ready)
    (owner : Owner) (result : Except Failure String) : (b.turnOver owner result).work? = none := by
  have hand : b.handOn.work? = none := by
    rw [handOn_eq, work?]
    exact work?_head ready
  cases owner with
  | run =>
    rw [turnOver, runTurnOver]
    split
    · exact hand
    · split <;> exact hand
  | client n => exact hand
  | operator => exact hand

/-- An event that does not move the holder changes neither the controller nor the operation under
way; one that does, moves both as the holder's turn says. -/
theorem step_work {b : Bench} (hs : b.Sound) (e : Event) :
    (b.moving? e = none ∧ (b.step e).controller = b.controller ∧ (b.step e).work? = b.work?) ∨
      ∃ (turn : Turn) (c : Controller) (s : TurnState), b.moving? e = some (turn, c, s) ∧
        (b.step e).controller = c ∧ (b.step e).work? = s.work? := by
  have hm := b.move e
  generalize b.step e = b' at hm ⊢
  cases hm with
  | idle begins moving => exact .inl ⟨moving, rfl, rfl⟩
  | wish _ wish =>
    refine .inl ⟨moving?_eq_none (Event.not_holders_of_wish wish).1 b, ?_, work?_wakeRun _⟩
    rw [control, wakeRun_controller]
  | poll => exact .inl ⟨moving?_eq_none rfl b, wakeRun_controller b, work?_wakeRun b⟩
  | queue guest stages =>
    exact .inl ⟨moving?_eq_none rfl b, queue_controller _ _ _, work?_queue _ _ _⟩
  | takeTurn begins taken =>
    exact .inl ⟨moving?_eq_none rfl b, queue_controller _ _ _, work?_queue _ _ _⟩
  | busy moving => exact .inr ⟨_, _, _, moving, rfl, rfl⟩
  | finish moving =>
    refine .inr ⟨_, _, _, moving, turnOver_controller _ _ _, work?_turnOver ?_ _ _⟩
    exact hs.ready
  | _ => exact .inl ⟨moving?_eq_none rfl b, rfl, rfl⟩

end Bench

end Stylus
