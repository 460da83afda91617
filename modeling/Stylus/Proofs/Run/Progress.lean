import Stylus.Proofs.Run.Chapters
import Stylus.Proofs.Run.Overflow

/-!
# Progress only moves forward

A run may go back in its script, and what everyone is told of its progress is kept apart from where
it is.  Yet what is told never goes back: whenever a run goes back to a mark it has counted a pass,
and passes come first.

* `RunPosition.Before` — less progress;
* `Cursor.before_of_done` — a step that is done at once makes progress, loops included;
* `Bench.passings` — where a run is, and what is told of it, each time a step is completed;
* `Bench.Forward` — how what is told moves;
* `Bench.progress_forward` — **it does so in every run whose count does not overflow**.

A run whose count overflows begins to count anew, and is told to be where it was long ago.
-/

set_option autoImplicit false

namespace Stylus

/-! ## Positions -/

namespace RunPosition

/-- Less progress: fewer passes, or as many and an earlier step. -/
def Before (p q : RunPosition) : Prop :=
  Prod.Lex (· < ·) (· < ·) (p.iterCount, p.stepIndex) (q.iterCount, q.stepIndex)

theorem before_iff {p q : RunPosition} :
    p.Before q ↔ p.iterCount < q.iterCount ∨
      p.iterCount = q.iterCount ∧ p.stepIndex < q.stepIndex :=
  Prod.lex_def

theorem Before.trans {p q r : RunPosition} (h : p.Before q) (h' : q.Before r) : p.Before r := by
  rw [before_iff, UInt32.lt_iff_toNat_lt, ← UInt32.toNat_inj] at *
  omega

/-- The position before the first step of a script. -/
def start (script : Script) : RunPosition :=
  ⟨0, 0, script.iterationCount⟩

end RunPosition

namespace Cursor

/-- What is to be told of a cursor. -/
def position (c : Cursor) : RunPosition :=
  ⟨c.stepIndex, c.iterCount, c.iterations⟩

/-- What a step that is done at once does to the place of the cursor and to the count. -/
theorem place_of_done {plan : Plan} {c c' : Cursor} {now : Nat} {step : Step}
    (taken : c.take plan now step = .done c') :
    (c'.iterCount = c.iterCount ∧ c'.stepIndex = c.stepIndex + 1) ∨
      (step = .loop ∧ c'.iterCount = c.iterCount + 1 ∧
        ∃ m, c.mark = some m ∧ (c'.stepIndex = m + 1 ∨ c'.stepIndex = c.stepIndex + 1)) := by
  cases take_iff.mp taken with
  | wait | mark => exact .inl ⟨rfl, rfl⟩
  | again marked => exact .inr ⟨rfl, rfl, _, marked, .inl rfl⟩
  | through marked => exact .inr ⟨rfl, rfl, _, marked, .inr rfl⟩

theorem before_of_step {c c' : Cursor} (count : c'.iterCount = c.iterCount)
    (index : c'.stepIndex = c.stepIndex + 1) : c.position.Before c'.position :=
  RunPosition.before_iff.mpr (.inr ⟨count.symm, by simp [position, index]⟩)

/-- **A step that is done at once makes progress**: a loop that goes back has counted a pass. -/
theorem before_of_done {plan : Plan} {c c' : Cursor} {now : Nat} {step : Step}
    (room : step = .loop → c.mark.isSome = true → c.iterCount.toNat + 1 ≠ UInt32.size)
    (taken : c.take plan now step = .done c') : c.position.Before c'.position := by
  rcases place_of_done taken with ⟨count, index⟩ | ⟨hloop, count, m, hm, -⟩
  · exact before_of_step count index
  · have hword := c.iterCount.toNat_lt_size
    have hfull := room hloop (by rw [hm]; rfl)
    have hmore := OnCourse.toNat_iterCount_succ (c := c) (by omega)
    refine RunPosition.before_iff.mpr (.inl ?_)
    rw [position, position, count, UInt32.lt_iff_toNat_lt, hmore]
    exact Nat.lt_succ_self _

/-- A step leaves the cursor at a step or behind the last one. -/
theorem stepIndex_le_of_done {plan : Plan} {c c' : Cursor} {now : Nat} {step : Step}
    (h : c.Tallied plan.script) (hs : plan.script.steps[c.stepIndex]? = some step)
    (taken : c.take plan now step = .done c') : c'.stepIndex ≤ plan.script.steps.length := by
  have hlt := (List.getElem?_eq_some_iff.mp hs).1
  rcases place_of_done taken with ⟨-, index⟩ | ⟨-, -, m, hm, index | index⟩
  · omega
  · have hbefore := h.mark m hm
    omega
  · omega

end Cursor

/-! ## What is told -/

/-- A step has been completed. -/
structure Passing where
  /-- where the run is then -/
  cursor : Cursor
  /-- what everyone is told then -/
  told : RunPosition

namespace Bench

/-- The step that is completed by an event. -/
def passing? (b : Bench) (e : Event) : Option Passing :=
  match b.stepEnd? e with
  | some (_, none) => (b.step e).run.map fun run => ⟨run.cursor, (b.step e).runner.position⟩
  | _ => none

/-- The steps that are completed along a sequence of events. -/
def passings (b : Bench) : List Event → List Passing
  | [] => []
  | e :: events => (b.passing? e).toList ++ (b.step e).passings events

/-- What is told last, if `start` is told before the first step is completed. -/
def lastTold (start : RunPosition) (passings : List Passing) : RunPosition :=
  (passings.getLast?.map Passing.told).getD start

theorem lastTold_cons (start : RunPosition) (passing : Passing) (passings : List Passing) :
    lastTold start (passing :: passings) = lastTold passing.told passings := by
  rw [lastTold, lastTold, List.getLast?_cons]
  cases passings.getLast? <;> rfl

/-- **How what is told of a run of a script moves** along events. -/
structure Forward (script : Script) (b : Bench) (events : List Event) : Prop where
  /-- something is told of every step that is completed -/
  complete : (b.passings events).length = (b.account events).passed.length
  /-- it is where the run is -/
  cursor : ∀ passing ∈ b.passings events,
    passing.told = ⟨passing.cursor.stepIndex, passing.cursor.iterCount, script.iterationCount⟩
  /-- it is more than what was told before -/
  forward : (RunPosition.start script :: (b.passings events).map Passing.told).Pairwise
    RunPosition.Before
  bounded : ∀ passing ∈ b.passings events, passing.told.stepIndex ≤ script.steps.length
  /-- meanwhile the run is where it was last told to be -/
  here : ∃ run, (b.steps events).run = some run ∧
    run.cursor.position = lastTold (.start script) (b.passings events)
  /-- and that is what the status shows -/
  shown : ∀ p, (b.steps events).runner.status = .running p ∨
      (b.steps events).runner.status = .paused p →
    p = lastTold (.start script) (b.passings events)

theorem position_of_status {r : Runner} {p : RunPosition}
    (h : r.status = .running p ∨ r.status = .paused p) : p = r.position := by
  rw [Runner.status] at h
  grind

end Bench

/-! ## The invariant -/

/-- **What holds of a run under way and of what is told of it.** -/
structure Advancing (plan : Plan) (b : Bench) (run : Run) : Prop where
  run_eq : b.run = some run
  plan_eq : run.plan = plan
  tallied : run.cursor.Tallied plan.script
  told : b.runner.position = run.cursor.position
  bounded : run.cursor.stepIndex ≤ plan.script.steps.length

namespace Advancing

variable {plan : Plan} {b b' : Bench} {run run' : Run} {e : Bench.Event}

/-- An event by which no step is completed. -/
theorem quiet (h : Advancing plan b run) (run_eq : b'.run = some run')
    (plan_eq : run'.plan = run.plan) (cursor : run'.cursor = run.cursor)
    (progress : b'.runner.progress = b.runner.progress) :
    Advancing plan b' run' := by
  refine ⟨run_eq, plan_eq.trans h.plan_eq, cursor ▸ h.tallied, ?_, cursor ▸ h.bounded⟩
  rw [Runner.position, progress, cursor]
  exact h.told

/-- An event by which a step is completed. -/
theorem passes (h : Advancing plan b run) {bench : Bench} {cursor : Cursor}
    (runner : bench.runner = b.runner) (tallied : cursor.Tallied plan.script)
    (bounded : cursor.stepIndex ≤ plan.script.steps.length) :
    Advancing plan (bench.passStep run cursor) { run with cursor, phase := .boundary } := by
  refine ⟨rfl, h.plan_eq, tallied, ?_, bounded⟩
  have hiterations : b.runner.progress.iterations = run.cursor.iterations :=
    congrArg RunPosition.iterations h.told
  show RunPosition.mk _ _ bench.runner.progress.iterations = _
  rw [runner, hiterations, h.tallied.iterations, Cursor.position, tallied.iterations]
  rfl

/-- **Every event by which the run does not end completes a step, and more is told, or completes
none, and what is told stays.** -/
theorem event (h : Advancing plan b run) (hs : b.Sound) (goes : b.ending? e = none)
    (room : ¬ b.overflows e) :
    (b.passing? e = none ∧ b.stepEnd? e = none ∧
        ∃ run', Advancing plan (b.step e) run' ∧ run'.cursor = run.cursor) ∨
      ∃ run', b.passing? e = some ⟨run'.cursor, run'.cursor.position⟩ ∧
        b.stepEnd? e = some (run.cursor.stepIndex, none) ∧
          run.cursor.position.Before run'.cursor.position ∧ Advancing plan (b.step e) run' := by
  have hr := h.run_eq
  have hm := b.runMove hs hr e
  have hends {bench : Bench} {result : Except Failure RunOutcome}
      (step : b.step e = bench.endRun result) : False := by
    rw [Bench.ending?_endRun hr step] at goes
    cases goes
  generalize hstep : b.step e = b' at hm ⊢
  -- no step is completed
  have still (stepEnd : b.stepEnd? e = none) {now : Run} (told : Advancing plan b' now)
      (cursor : now.cursor = run.cursor) :
      (b.passing? e = none ∧ b.stepEnd? e = none ∧
        ∃ run', Advancing plan b' run' ∧ run'.cursor = run.cursor) :=
    ⟨by simp only [Bench.passing?, stepEnd], stepEnd, now, told, cursor⟩
  -- a step is completed
  have passed {now : Run} (stepEnd : b.stepEnd? e = some (run.cursor.stepIndex, none))
      (told : Advancing plan b' now) (before : run.cursor.position.Before now.cursor.position) :
      ∃ run', b.passing? e = some ⟨run'.cursor, run'.cursor.position⟩ ∧
        b.stepEnd? e = some (run.cursor.stepIndex, none) ∧
          run.cursor.position.Before run'.cursor.position ∧ Advancing plan b' run' := by
    refine ⟨now, ?_, stepEnd, before, told⟩
    simp only [Bench.passing?, stepEnd, hstep, told.run_eq, Option.map_some, told.told]
  cases hm with
  | stays run_eq runner _ _ _ stepEnd =>
    exact .inl (still stepEnd (h.quiet run_eq rfl rfl (by rw [runner, e.wished_progress])) rfl)
  | wakes _ run_eq runner _ stepEnd =>
    exact .inl (still stepEnd (h.quiet run_eq rfl rfl (by rw [runner, e.wished_progress])) rfl)
  | rests boundary stop pause =>
    have stepEnd := Bench.stepEnd?_of_not_holders rfl
      (Bench.begins?_of_wish (b := b) (by simp [pause]))
    exact .inl (still stepEnd (h.quiet rfl rfl rfl rfl) rfl)
  | begins begins taken =>
    have stepEnd : b.stepEnd? .decide = none := by simp only [Bench.stepEnd?, begins, taken]
    exact .inl (still stepEnd
      (h.quiet (Bench.queue_run _ _ _) rfl rfl (by rw [Bench.queue_runner])) rfl)
  | @does step cursor begins taken =>
    obtain ⟨-, -, -, hs'⟩ := Bench.begins?_decide.mp begins
    have stepEnd : b.stepEnd? .decide = some (run.cursor.stepIndex, none) := by
      simp only [Bench.stepEnd?, begins, taken]
    have hroom : step = .loop → run.cursor.mark.isSome = true →
        run.cursor.iterCount.toNat + 1 ≠ UInt32.size := by
      rintro rfl marked full
      exact room ⟨run, begins, marked, full⟩
    rw [h.plan_eq] at hs' taken
    exact .inr (passed stepEnd
      (h.passes rfl (h.tallied.done hs' hroom taken)
        (Cursor.stepIndex_le_of_done h.tallied hs' taken))
      (Cursor.before_of_done hroom taken))
  | refused => exact (hends hstep).elim
  | @passes _ bench working runner _ stepEnd =>
    obtain ⟨now, step, stages, hs', taken⟩ := hs.step run hr working
    rw [h.plan_eq] at hs' taken
    exact .inr (passed stepEnd
      (h.passes runner (h.tallied.turn hs' taken) (List.getElem?_eq_some_iff.mp hs').1)
      (Cursor.before_of_step rfl rfl))
  | fails => exact (hends hstep).elim
  | stopped => exact (hends hstep).elim
  | completed => exact (hends hstep).elim

end Advancing

/-! ## Runs -/

namespace Bench

variable {plan : Plan} {b b' : Bench} {events : List Event}

/-- **How what is told moves** along events, when the run is at a cursor before them. -/
structure Onward (plan : Plan) (c : Cursor) (s : Bench × Account) (events : List Event) : Prop where
  complete : (events.foldl watch s).2.passed.length =
    s.2.passed.length + (s.1.passings events).length
  cursor : ∀ passing ∈ s.1.passings events, passing.told = passing.cursor.position ∧
    passing.cursor.iterations = plan.script.iterationCount ∧
      passing.told.stepIndex ≤ plan.script.steps.length
  forward : (c.position :: (s.1.passings events).map Passing.told).Pairwise RunPosition.Before
  now : ∃ run, Advancing plan (s.1.steps events) run ∧
    run.cursor.position = lastTold c.position (s.1.passings events)

namespace Onward

variable {c c' : Cursor} {a : Account} {e : Event}

/-- An event by which no step is completed adds nothing. -/
theorem quiet (rest : Onward plan c (watch (b, a) e) events) (passing : b.passing? e = none)
    (passed : (a.note b e).passed = a.passed) : Onward plan c (b, a) (e :: events) := by
  have hpassings : b.passings (e :: events) = (b.step e).passings events := by
    rw [passings, passing, Option.toList_none, List.nil_append]
  refine ⟨?_, hpassings ▸ rest.cursor, hpassings ▸ rest.forward, hpassings ▸ rest.now⟩
  rw [hpassings, ← passed]
  exact rest.complete

/-- An event by which a step is completed is told of before the later ones. -/
theorem passes (rest : Onward plan c' (watch (b, a) e) events)
    (passing : b.passing? e = some ⟨c', c'.position⟩) {i : Nat}
    (passed : (a.note b e).passed = a.passed ++ [i]) (before : c.position.Before c'.position)
    (iterations : c'.iterations = plan.script.iterationCount)
    (bounded : c'.stepIndex ≤ plan.script.steps.length) : Onward plan c (b, a) (e :: events) := by
  have hpassings : b.passings (e :: events) = ⟨c', c'.position⟩ :: (b.step e).passings events := by
    rw [passings, passing, Option.toList_some, List.singleton_append]
  refine ⟨?_, ?_, ?_, ?_⟩
  · have hcomplete : (events.foldl watch (watch (b, a) e)).2.passed.length =
        (a.note b e).passed.length + ((b.step e).passings events).length := rest.complete
    rw [passed, List.length_append, List.length_singleton] at hcomplete
    rw [hpassings, List.foldl_cons, hcomplete, List.length_cons]
    dsimp only
    omega
  · rw [hpassings]
    exact List.forall_mem_cons.mpr ⟨⟨rfl, iterations, bounded⟩, rest.cursor⟩
  · rw [hpassings, List.map_cons]
    refine List.pairwise_cons.mpr ⟨?_, rest.forward⟩
    refine List.forall_mem_cons.mpr ⟨before, fun p hp => ?_⟩
    exact before.trans (List.rel_of_pairwise_cons rest.forward hp)
  · rw [hpassings, lastTold_cons]
    exact rest.now

end Onward

/-- **As long as a run goes on and its count does not overflow, what is told of it moves
forward.** -/
theorem onward {a : Account} {run : Run} (h : Advancing plan b run) (hs : b.Sound)
    (active : a.ended = none) (goes : b.GoesOn events) (room : ¬ OverflowsIn (b, a) events) :
    Onward plan run.cursor (b, a) events := by
  induction events generalizing b a run with
  | nil => exact ⟨rfl, by simp [passings], by simp [passings], run, h, rfl⟩
  | cons e events ih =>
    obtain ⟨hgoes, hlater⟩ := goes
    have hactive : (a.note b e).ended = none := (Account.note_ended active b e).trans hgoes
    have hroom : ¬ b.overflows e := fun overflows => room (.inl ⟨active, overflows⟩)
    have hlaterRoom : ¬ OverflowsIn (watch (b, a) e) events := fun later => room (.inr later)
    rcases h.event hs hgoes hroom with
      ⟨passing, stepEnd, run', told, cursor⟩ | ⟨run', passing, stepEnd, before, told⟩
    · have hrest := ih told (hs.step_event e) hactive hlater hlaterRoom
      rw [cursor] at hrest
      exact hrest.quiet passing (by simp [Account.note, active, stepEnd])
    · have hrest := ih told (hs.step_event e) hactive hlater hlaterRoom
      have passed : (a.note b e).passed = a.passed ++ [run.cursor.stepIndex] := by
        simp [Account.note, active, stepEnd]
      exact hrest.passes passing passed before told.tallied.iterations told.bounded

/-- **Progress only moves forward.**  Whatever has happened before the request, and whatever is
wished for, asked, answered and waited for after it: as long as the run does not end and its count
does not overflow, more is told of it with every step that it completes, and at every moment it is
where it was told to be. -/
theorem progress_forward {settings : MotionSettings} {before : List Event} {r : RunRequest}
    (accepted : ((fresh settings).steps before).request r = .ok b) (goes : b.GoesOn events)
    (room : ¬ OverflowsIn (b, {}) events) : b.Forward r.script events := by
  obtain ⟨hs, -, plan, planned, start⟩ := start_of_accepted accepted
  rw [← plan_script planned]
  have htold : Advancing plan b ⟨plan, .start plan.script.iterationCount, .boundary⟩ := by
    rw [Bench.start] at start
    split at start <;> cases start
    exact ⟨rfl, rfl, .start plan.script, rfl, Nat.zero_le _⟩
  have h := onward htold hs rfl goes room
  obtain ⟨run, told, hlast⟩ := h.now
  refine ⟨?_, ?_, h.forward, ?_, ⟨run, told.run_eq, hlast⟩, ?_⟩
  · rw [account, h.complete]
    exact (Nat.zero_add _).symm
  · intro passing hpassing
    obtain ⟨hposition, hiterations, -⟩ := h.cursor passing hpassing
    rw [hposition, Cursor.position, hiterations]
  · exact fun passing hpassing => (h.cursor passing hpassing).2.2
  · intro p hp
    rw [position_of_status hp, told.told, hlast]
    rfl

/-- Both passes of a script that loops over nothing, with a pause between them. -/
def bothPasses : List Event :=
  [.decide, .decide, .pause, .decide, .resume, .decide]

theorem progress_forward_bothPasses :
    ∃ b : Bench, ((fresh {}).steps []).request twice = .ok b ∧ b.GoesOn bothPasses ∧
      ¬ OverflowsIn (b, {}) bothPasses ∧ b.Forward twice.script bothPasses ∧
      (b.passings bothPasses).map Passing.told = [⟨1, 0, 2⟩, ⟨1, 1, 2⟩, ⟨2, 2, 2⟩] ∧
      (b.steps (bothPasses.take 4)).runner.status = .paused ⟨1, 1, 2⟩ := by
  have accepted : ((fresh {}).steps []).request twice =
      .ok (((fresh {}).steps []).step (.request twice)) := rfl
  have goes : (((fresh {}).steps []).step (.request twice)).GoesOn bothPasses :=
    ⟨rfl, rfl, rfl, rfl, rfl, rfl, trivial⟩
  have fits : Script.CountFits twice.script := by
    show 2 + 1 ≤ UInt32.size
    decide
  obtain ⟨hs, -, plan, planned, hstart⟩ := start_of_accepted accepted
  rw [← plan_script planned] at fits
  have room := not_overflowsIn_of_accounted (.start hstart hs) fits bothPasses
  exact ⟨_, accepted, goes, room, progress_forward accepted goes room, rfl, rfl⟩

end Bench

end Stylus
