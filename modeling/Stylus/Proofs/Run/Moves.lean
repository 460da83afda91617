import Stylus.Proofs.Run.Account

/-!
# What one event may do to a run

`Bench.Move` says what an event does to the whole bench.  A run under way sees little of that: it
stays where it is, rests, begins a step, comes to the end of one, or ends.  `Bench.RunMove` lists
these, each with what has to be the case for it and with what is then to be seen of the run.

* `Bench.RunMove`, `Bench.runMove` — an event does one of these to a run under way;
* `Bench.control_of_going` — as long as it is under way, only calls change its wishes;
* `Bench.move_log` — an event puts on record what `entries` says, and nothing else.
-/

set_option autoImplicit false

namespace Stylus

namespace Account

/-! ## The account -/

theorem note_of_ended {a : Account} (h : a.ended.isSome = true) (b : Bench) (e : Bench.Event) :
    a.note b e = a := by
  rw [note, if_pos h]

theorem note_begun {a : Account} (active : a.ended = none) (b : Bench) (e : Bench.Event) :
    (a.note b e).begun =
      a.begun ++ ((b.begins? e).map fun begins => begins.1.cursor.stepIndex).toList := by
  simp [note, active]

theorem note_ended {a : Account} (active : a.ended = none) (b : Bench) (e : Bench.Event) :
    (a.note b e).ended = b.ending? e := by
  simp [note, active]

/-- A run that is still there has not ended. -/
theorem ended_of_run {a : Account} (active : a.ended = none) {b b' : Bench} {e : Bench.Event}
    (h : b.step e = b') {run : Run} (hr : b'.run = some run) : (a.note b e).ended = none := by
  rw [note_ended active, Bench.ending?_eq_none h hr]

theorem ended_of_endRun {a : Account} (active : a.ended = none) {b b' : Bench} {e : Bench.Event}
    {run : Run} (hr : b.run = some run) {result : Except Failure RunOutcome}
    (h : b.step e = b'.endRun result) : (a.note b e).ended = some result := by
  rw [note_ended active, Bench.ending?_endRun hr h]

end Account

namespace Bench

theorem account_append (b : Bench) (events later : List Event) :
    b.account (events ++ later) = (later.foldl watch (b.steps events, b.account events)).2 := by
  rw [account, List.foldl_append, ← foldl_watch_fst (b, ({} : Account))]
  rfl

/-! ## The record -/

/-- An event that moves no holder puts nothing on record. -/
theorem entries_of_not_moving {b : Bench} {e : Event} (h : b.moving? e = none) :
    b.entries e = [] := by
  cases hb : b.holder with
  | none => rw [entries, hb]
  | some turn =>
    rw [moving?, hb, Option.bind_some, Option.map_eq_none_iff] at h
    rw [entries_of_holder hb]
    cases e with
    | answer a =>
      cases ha : turn.activity with
      | asking work => simp [Turn.moved?, ha] at h
      | ready => simp only [Turn.answers, ha, List.map_nil]
      | sleeping time => simp only [Turn.answers, ha, List.map_nil]
    | _ => rfl

@[simp] theorem wakeRun_log (b : Bench) : b.wakeRun.log = b.log := by
  simp only [wakeRun]
  split
  · split <;> rfl
  · rfl

@[simp] theorem turnOver_log (b : Bench) (owner : Owner) (result : Except Failure String) :
    (b.turnOver owner result).log = b.log := by
  cases owner <;> simp only [turnOver, runTurnOver, handOn_eq]
  split
  · rfl
  · split <;> rfl

/-- **An event puts on record what is answered by it, and nothing else.** -/
theorem move_log {b b' : Bench} {e : Event} (h : Move b e b') : b'.log = b.entries e ++ b.log := by
  have quiet (unanswered : ∀ a, e ≠ .answer a) (same : b'.log = b.log) :
      b'.log = b.entries e ++ b.log := by
    rw [entries_eq_nil unanswered, same]
    rfl
  cases h with
  | idle _ moving => rw [entries_of_not_moving moving]; rfl
  | busy => rfl
  | finish => rw [turnOver_log]
  | wish _ wish => exact quiet (by rintro a rfl; cases wish) (wakeRun_log _)
  | poll => exact quiet (by simp) (wakeRun_log b)
  | queue guest stages => exact quiet (by simp) (queue_log b guest.owner stages)
  | takeTurn => exact quiet (by simp) (queue_log _ _ _)
  | _ => exact quiet (by simp) rfl

/-! ## Without a run -/

theorem wakeRun_of_idle {b : Bench} (hr : b.run = none) : b.wakeRun = b := by
  simp only [wakeRun, hr]

theorem control_of_idle {b : Bench} (hr : b.run = none) (change : Runner → Runner) :
    b.control change = { b with runner := change b.runner } := by
  have hr' : Bench.run { b with runner := change b.runner } = none := hr
  rw [control, wakeRun_of_idle hr']

/-! ## The run -/

/-- The wishes after an event that leaves the run under way. -/
def Event.wished (e : Event) (r : Runner) : Runner :=
  match e.wish? with
  | some change => change r
  | none => r

/-- Wishes do not change what everyone is told. -/
theorem Event.wished_progress (e : Event) (r : Runner) : (e.wished r).progress = r.progress := by
  cases e <;> rfl

/-- **Everything that an event may do to a run under way.** -/
inductive RunMove (b : Bench) (run : Run) : Event → Bench → Prop where
  /-- nothing -/
  | stays {e : Event} {b' : Bench} (run_eq : b'.run = some run)
      (runner : b'.runner = e.wished b.runner)
      (resting : ∀ time, run.phase = .resting time → e.wish? = none ∧ (e = .poll → b.now < time))
      (undecided : e = .decide → run.phase ≠ .boundary)
      (begins : b.begins? e = none) (stepEnd : b.stepEnd? e = none) : RunMove b run e b'
  /-- a run that rests looks at the wishes again -/
  | wakes {e : Event} {b' : Bench} {time : Nat} (resting : run.phase = .resting time)
      (run_eq : b'.run = some { run with phase := .boundary })
      (runner : b'.runner = e.wished b.runner)
      (begins : b.begins? e = none) (stepEnd : b.stepEnd? e = none) : RunMove b run e b'
  /-- it rests -/
  | rests (boundary : run.phase = .boundary) (stop : b.runner.control.stop = false)
      (pause : b.runner.control.pause = true) :
      RunMove b run .decide
        { b with run := some { run with phase := .resting (b.now + pausePoll) } }
  /-- it begins a step that needs the controller -/
  | begins {step : Step} {stages : List Stage} (begins : b.begins? .decide = some (run, step))
      (taken : run.cursor.take run.plan b.now step = .turn stages) :
      RunMove b run .decide
        (queue { b with run := some { run with phase := .working } } .run stages)
  /-- it does a step that needs nothing -/
  | does {step : Step} {cursor : Cursor} (begins : b.begins? .decide = some (run, step))
      (taken : run.cursor.take run.plan b.now step = .done cursor) :
      RunMove b run .decide (b.passStep run cursor)
  /-- it fails in a step before it asks for the controller -/
  | refused {step : Step} {f : Failure} (begins : b.begins? .decide = some (run, step))
      (taken : run.cursor.take run.plan b.now step = .failed f) :
      RunMove b run .decide (b.endRun (.error f))
  /-- the step under way passes -/
  | passes {e : Event} {bench : Bench} (working : run.phase = .working)
      (runner : bench.runner = b.runner) (begins : b.begins? e = none)
      (stepEnd : b.stepEnd? e = some (run.cursor.stepIndex, none)) :
      RunMove b run e (bench.passStep run run.cursor.advance)
  /-- the step under way fails -/
  | fails {e : Event} {bench : Bench} {f : Failure} (working : run.phase = .working)
      (runner : bench.runner = b.runner) (begins : b.begins? e = none)
      (stepEnd : b.stepEnd? e = some (run.cursor.stepIndex, some f)) :
      RunMove b run e (bench.endRun (.error f))
  /-- the run stops -/
  | stopped (boundary : run.phase = .boundary) (stop : b.runner.control.stop = true) :
      RunMove b run .decide (b.endRun (.ok .stopped))
  /-- the run has no step left -/
  | completed (boundary : run.phase = .boundary) (calm : b.runner.control = {})
      (behind : run.plan.script.steps[run.cursor.stepIndex]? = none) :
      RunMove b run .decide (b.endRun (.ok .completed))

/-- Between steps the run decides by the wishes, the stop first. -/
theorem runMove_decide {b : Bench} {run : Run} (hr : b.run = some run) :
    RunMove b run .decide (b.step .decide) := by
  have hnone (h : b.begins? .decide = none) : b.stepEnd? .decide = none :=
    stepEnd?_of_not_holders rfl h
  show RunMove b run .decide b.decide
  rw [decide, hr]
  dsimp only
  split
  · rename_i boundary
    split
    · rename_i stop
      exact .stopped boundary stop
    · rename_i stop
      split
      · rename_i pause
        exact .rests boundary (by simpa using stop) pause
      · rename_i pause
        have calm : b.runner.control = {} := by
          cases hc : b.runner.control with
          | mk p s => simp_all
        split
        · rename_i behind
          exact .completed boundary calm behind
        · rename_i step hs
          have begins := begins?_decide.mpr ⟨hr, boundary, calm, hs⟩
          split
          · rename_i taken
            exact .begins begins taken
          · rename_i taken
            exact .does begins taken
          · rename_i taken
            exact .refused begins taken
  · rename_i boundary
    have boundary : run.phase ≠ .boundary := boundary
    have begins : b.begins? .decide = none := by simp [begins?, hr, boundary]
    exact .stays hr rfl (fun _ _ => ⟨rfl, by simp⟩) (fun _ => boundary) begins (hnone begins)

/-- An event that leaves run and runner alone and concerns neither is no more than a stay. -/
theorem runMove_quiet {b b' : Bench} {run : Run} {e : Event} (run_eq : b'.run = some run)
    (runner : b'.runner = b.runner) (wish : e.wish? = none) (poll : e ≠ .poll)
    (decide : e ≠ .decide) (stepEnd : b.stepEnd? e = none) : RunMove b run e b' := by
  refine .stays run_eq ?_ (fun _ _ => ⟨wish, fun h => absurd h poll⟩) (fun h => absurd h decide)
    (begins?_of_ne_decide decide) stepEnd
  rw [runner, Event.wished, wish]

/-- A change of the wishes wakes a run that rests. -/
theorem runMove_control {b : Bench} {run : Run} (hr : b.run = some run) {e : Event}
    {change : Runner → Runner} (wish : e.wish? = some change) :
    RunMove b run e (b.control change) := by
  obtain ⟨holders, decide⟩ := Event.not_holders_of_wish wish
  obtain ⟨begins, stepEnd⟩ := quiet_of_not_holders (b := b) holders decide
  have runner : change b.runner = e.wished b.runner := by rw [Event.wished, wish]
  simp only [control, wakeRun, hr]
  split
  · rename_i time resting
    exact .wakes resting rfl runner begins stepEnd
  · rename_i resting
    exact .stays rfl runner (fun time h => absurd h (resting time)) (fun h => absurd h decide)
      begins stepEnd

/-- A run that has rested long enough wakes. -/
theorem runMove_poll {b : Bench} {run : Run} (hr : b.run = some run) :
    RunMove b run .poll b.poll := by
  obtain ⟨begins, stepEnd⟩ := quiet_of_not_holders (b := b) (e := .poll) rfl (by simp)
  simp only [poll, wakeRun, hr]
  split
  · rename_i time resting
    split
    · exact .wakes resting rfl rfl begins stepEnd
    · rename_i late
      refine .stays hr rfl (fun time' h => ⟨rfl, fun _ => ?_⟩) (by simp) begins stepEnd
      rw [resting] at h
      cases h
      omega
  · rename_i resting
    exact .stays hr rfl (fun time h => absurd h (resting time)) (by simp) begins stepEnd

/-- A turn of the run that ends is the end of the step under way. -/
theorem runMove_turnOver {b bench : Bench} {run : Run} {e : Event} {turn : Turn} {c : Controller}
    {result : Except Failure String} (hs : b.Sound) (hr : b.run = some run)
    (moving : b.moving? e = some (turn, c, .over result)) (owner : turn.owner = .run)
    (run_eq : bench.run = some run) (runner : bench.runner = b.runner) :
    RunMove b run e (bench.turnOver .run result) := by
  have begins := begins?_of_moving moving
  obtain ⟨⟨run', hr', working⟩, -⟩ := hs.holder_run (moving?_eq_some.mp moving).1 owner
  obtain rfl := Option.some.inj (hr.symm.trans hr')
  have stepEnd : b.stepEnd? e = some (run.cursor.stepIndex, failure? result) := by
    simp [stepEnd?, begins, hr, moving, owner]
  have handOn_runner : bench.handOn.runner = b.runner := by rw [handOn_eq, ← runner]
  cases result with
  | ok answer =>
    rw [turnOver_run_ok run_eq]
    exact .passes working handOn_runner begins stepEnd
  | error f =>
    rw [turnOver_run_error run_eq]
    exact .fails working handOn_runner begins stepEnd

/-- While a run is under way no other is begun. -/
theorem step_request_of_running {b : Bench} (running : b.runner.progress.running = true)
    (r : RunRequest) : b.step (.request r) = b := by
  cases hp : r.plan with
  | error f => simp [step, request_of_fault hp]
  | ok plan => simp [step, request_of_plan hp, start, running]

/-- An event of whoever has the controller concerns the run if that is the run itself and its turn
ends. -/
theorem runMove_holder {b b' : Bench} {run : Run} {e : Event} (hs : b.Sound) (hr : b.run = some run)
    (holders : e.isHolders = true) (hm : Move b e b') : RunMove b run e b' := by
  have wish : e.wish? = none := by cases e <;> simp_all [Event.isHolders, Event.wish?]
  have poll : e ≠ .poll := by rintro rfl; cases holders
  have decide : e ≠ .decide := by rintro rfl; cases holders
  have begins : b.begins? e = none := begins?_of_ne_decide decide
  cases hm with
  | idle _ moving =>
    exact runMove_quiet hr rfl wish poll decide (by simp [stepEnd?, begins, moving])
  | busy moving =>
    exact runMove_quiet hr rfl wish poll decide (stepEnd?_eq_none begins (by simp [moving]))
  | @finish _ turn c result moving =>
    by_cases owner : turn.owner = .run
    · rw [owner]
      exact runMove_turnOver hs hr moving owner hr rfl
    · have stepEnd := stepEnd?_eq_none begins fun turn' c' result' hm => by
        rw [moving] at hm
        cases hm
        exact owner
      rw [turnOver_guest owner, handOn_eq]
      exact runMove_quiet hr rfl wish poll decide stepEnd
  | wish _ change => simp [wish] at change
  | _ => cases holders

/-- **An event does one of these to a run under way.** -/
theorem runMove {b : Bench} {run : Run} (hs : b.Sound) (hr : b.run = some run) (e : Event) :
    RunMove b run e (b.step e) := by
  have quiet (holders : e.isHolders = false) (decide : e ≠ .decide) : b.stepEnd? e = none :=
    (quiet_of_not_holders holders decide).2
  cases e with
  | pass span => exact runMove_quiet hr rfl rfl (by simp) (by simp) (quiet rfl (by simp))
  | request r =>
    rw [step_request_of_running (by rw [hs.running, hr]; rfl) r]
    exact runMove_quiet hr rfl rfl (by simp) (by simp) (quiet rfl (by simp))
  | pause => exact runMove_control (e := .pause) hr rfl
  | resume => exact runMove_control (e := .resume) hr rfl
  | stop => exact runMove_control (e := .stop) hr rfl
  | queue guest stages =>
    exact runMove_quiet (by simpa [Bench.step] using hr) (by simp [Bench.step]) rfl (by simp)
      (by simp) (quiet rfl (by simp))
  | withdraw guest => exact runMove_quiet hr rfl rfl (by simp) (by simp) (quiet rfl (by simp))
  | proceed => exact runMove_holder hs hr rfl (b.move .proceed)
  | wake => exact runMove_holder hs hr rfl (b.move .wake)
  | answer a => exact runMove_holder hs hr rfl (b.move (.answer a))
  | decide => exact runMove_decide hr
  | poll => exact runMove_poll hr

/-- A run is under way with its plan after an event, or the event ends it. -/
theorem goesOn_or_ends {b : Bench} (hs : b.Sound) {run : Run} (hr : b.run = some run) (e : Event) :
    (∃ now : Run, (b.step e).run = some now ∧ now.plan = run.plan) ∨
      ∃ (bench : Bench) (result : Except Failure RunOutcome), b.step e = bench.endRun result := by
  have hm := runMove hs hr e
  generalize b.step e = b' at hm ⊢
  cases hm with
  | stays run_eq => exact .inl ⟨_, run_eq, rfl⟩
  | wakes _ run_eq => exact .inl ⟨_, run_eq, rfl⟩
  | begins => exact .inl ⟨_, queue_run _ _ _, rfl⟩
  | rests | does | passes => exact .inl ⟨_, rfl, rfl⟩
  | refused | fails | stopped | completed => exact .inr ⟨_, _, rfl⟩

/-- A call finds the run where it was, and a run that rests wakes. -/
theorem run_of_wish {b : Bench} (hs : b.Sound) {run : Run} (hr : b.run = some run) {e : Event}
    {change : Runner → Runner} (wish : e.wish? = some change) :
    ∃ now : Run, (b.step e).run = some now ∧ (b.step e).runner = change b.runner ∧
      now.position? = run.position? ∧ ∀ time, now.phase ≠ .resting time := by
  obtain ⟨holders, decide⟩ := Event.not_holders_of_wish wish
  have hquiet : b.stepEnd? e = none := (quiet_of_not_holders holders decide).2
  have hwished : e.wished b.runner = change b.runner := by rw [Event.wished, wish]
  have hm := runMove hs hr e
  generalize b.step e = b' at hm
  cases hm with
  | stays run_eq runner resting =>
    refine ⟨run, run_eq, runner.trans hwished, rfl, fun time h => ?_⟩
    cases wish.symm.trans (resting time h).1
  | wakes resting run_eq runner =>
    exact ⟨_, run_eq, runner.trans hwished, by simp [Run.position?, resting], by simp⟩
  | rests | begins | does | refused | stopped | completed => exact absurd rfl decide
  | passes _ _ _ stepEnd | fails _ _ _ stepEnd => cases hquiet.symm.trans stepEnd

/-- **As long as a run is under way, only calls change its wishes.** -/
theorem control_of_going {b : Bench} (hs : b.Sound) {run now : Run} (hr : b.run = some run)
    {e : Event} (going : (b.step e).run = some now) :
    (b.step e).runner.control = (e.wished b.runner).control := by
  have hm := runMove hs hr e
  generalize b.step e = b' at hm going ⊢
  cases hm with
  | stays _ runner | wakes _ _ runner => rw [runner]
  | begins => rw [queue_runner]; rfl
  | rests | does => rfl
  | passes _ runner _ stepEnd =>
    cases wish : e.wish? with
    | none =>
      rw [passStep, runner, Event.wished, wish]
      rfl
    | some change =>
      obtain ⟨holders, decide⟩ := Event.not_holders_of_wish wish
      cases (quiet_of_not_holders holders decide).2.symm.trans stepEnd
  | refused | fails | stopped | completed => cases going

end Bench

end Stylus
