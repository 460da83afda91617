import Stylus.Proofs.Bench.Sound
import Stylus.Proofs.Run.Unrolling

/-!
# What a run does is what its script says

An `Account` of a run is kept from outside: event by event it notes which steps are begun, which
pass, which one fails, and how the run ends.  Whatever is asked of the bench meanwhile, and whatever
the plotter answers, the account agrees with the script unrolled.

* `Bench.stepEnd?`, `Bench.ending?` — what is noted of an event;
* `Bench.account` — the account of a run along a sequence of events;
* `Account.Follows` — how an account and an order of steps agree;
* `Underway` — the invariant while the run is under way: what has passed and what is ahead of the
  cursor make up the unrolling;
* `Bench.account_follows` — the account of every accepted run agrees with its script.
-/

set_option autoImplicit false

namespace Stylus

/-! ## Keeping account -/

namespace Bench

/-- The step of the run that comes to its end by an event, with the failure if it fails. -/
def stepEnd? (b : Bench) (e : Event) : Option (Nat × Option Failure) :=
  match b.begins? e with
  | some (run, step) =>
    match run.cursor.take run.plan b.now step with
    | .turn _ => none
    | .done _ => some (run.cursor.stepIndex, none)
    | .failed f => some (run.cursor.stepIndex, some f)
  | none =>
    match b.run, b.moving? e with
    | some run, some (turn, _, .over result) =>
      if turn.owner = .run then some (run.cursor.stepIndex, failure? result) else none
    | _, _ => none

/-- The result with which the run ends by an event. -/
def ending? (b : Bench) (e : Event) : Option (Except Failure RunOutcome) :=
  match b.run, (b.step e).run, (b.step e).reports with
  | some _, none, .run result :: _ => some result
  | _, _, _ => none

end Bench

/-- What is noted of a run. -/
structure Account where
  /-- the positions of the steps begun, in order -/
  begun : List Nat := []
  /-- those of the steps that have passed -/
  passed : List Nat := []
  /-- the step that has failed, and why -/
  failed : Option (Nat × Failure) := none
  /-- how the run has ended -/
  ended : Option (Except Failure RunOutcome) := none

namespace Account

/-- Takes note of an event, as long as the run has not ended. -/
def note (a : Account) (b : Bench) (e : Bench.Event) : Account :=
  if a.ended.isSome then a
  else
    { begun := a.begun ++ ((b.begins? e).map fun begins => begins.1.cursor.stepIndex).toList
      passed :=
        match b.stepEnd? e with
        | some (i, none) => a.passed ++ [i]
        | _ => a.passed
      failed :=
        match b.stepEnd? e with
        | some (i, some f) => some (i, f)
        | _ => a.failed
      ended := b.ending? e }

/-- **How an account of a run and an order of steps agree.** -/
structure Follows (a : Account) (u : Unrolling) : Prop where
  /-- the steps are begun in the order, and no others -/
  begun : a.begun <+: u.positions
  /-- they pass in the order -/
  passed : a.passed <+: u.steps
  /-- no step is begun before the one before it has passed -/
  oneByOne : a.passed = a.begun ∨ ∃ i, a.passed ++ [i] = a.begun
  /-- the run is completed only when all of the order has passed -/
  completed : a.ended = some (.ok .completed) → a.passed = u.steps ∧ u.stuck = none
  /-- it ends with a failure exactly if the next step of the order has failed with it -/
  failed : ∀ result : Except Failure RunOutcome, a.ended = some result → ∀ f : Failure,
    result = .error f ↔ ∃ i : Nat, u.positions[a.passed.length]? = some i ∧ a.failed = some (i, f)
  /-- a loop without a mark fails with that as soon as it is begun -/
  stuck : ∀ l : Nat, u.stuck = some l → l ∈ a.begun → a.failed = some (l, .invalidLoopMark l)

end Account

namespace Bench

/-- An event, noted. -/
def watch (s : Bench × Account) (e : Event) : Bench × Account :=
  (s.1.step e, s.2.note s.1 e)

/-- The account of the run under way, along a sequence of events. -/
def account (b : Bench) (events : List Event) : Account :=
  (events.foldl watch (b, {})).2

theorem foldl_watch_fst (s : Bench × Account) (events : List Event) :
    (events.foldl watch s).1 = s.1.steps events := by
  induction events generalizing s with
  | nil => rfl
  | cons e events ih => exact ih (watch s e)

/-! ## What is noted of the moves -/

theorem begins?_of_ne_decide {b : Bench} {e : Event} (h : e ≠ .decide) : b.begins? e = none := by
  cases e with
  | decide => exact absurd rfl h
  | _ => rfl

/-- An event that moves the holder begins no step. -/
theorem begins?_of_moving {b : Bench} {e : Event} {m : Turn × Controller × TurnState}
    (h : b.moving? e = some m) : b.begins? e = none := by
  refine begins?_of_ne_decide ?_
  rintro rfl
  rw [moving?_eq_none rfl] at h
  cases h

/-- An event that begins no step and moves no turn is the end of no step. -/
theorem stepEnd?_of_not_holders {b : Bench} {e : Event} (h : e.isHolders = false)
    (begins : b.begins? e = none) : b.stepEnd? e = none := by
  simp [stepEnd?, begins, moving?_eq_none h b]

theorem quiet_of_not_holders {b : Bench} {e : Event} (h : e.isHolders = false) (hd : e ≠ .decide) :
    b.begins? e = none ∧ b.stepEnd? e = none := by
  have begins : b.begins? e = none := begins?_of_ne_decide hd
  exact ⟨begins, stepEnd?_of_not_holders h begins⟩

/-- A turn of someone else that ends, or none, is the end of no step. -/
theorem stepEnd?_eq_none {b : Bench} {e : Event} (begins : b.begins? e = none)
    (other : ∀ (turn : Turn) (c : Controller) (result : Except Failure String),
      b.moving? e = some (turn, c, .over result) → turn.owner ≠ .run) : b.stepEnd? e = none := by
  rw [stepEnd?, begins]
  dsimp only
  split
  · rename_i run turn c result _ hm
    rw [if_neg (other turn c result hm)]
  · rfl

theorem ending?_eq_none {b b' : Bench} {e : Event} (h : b.step e = b') {run : Run}
    (hr : b'.run = some run) : b.ending? e = none := by
  rw [ending?, h, hr]
  split <;> simp_all

/-- The run ends when it is taken from the bench. -/
theorem ending?_endRun {b b' : Bench} {e : Event} {run : Run} (hr : b.run = some run)
    {result : Except Failure RunOutcome} (h : b.step e = b'.endRun result) :
    b.ending? e = some result := by
  rw [ending?, hr, h]
  rfl

end Bench

/-! ## While the run is under way -/

/-- The position of the step that is under way. -/
def Run.position? (run : Run) : Option Nat :=
  if run.phase = .working then some run.cursor.stepIndex else none

/-- **What holds of a run under way and the account of it.** -/
structure Underway (b : Bench) (a : Account) (run : Run) : Prop where
  run_eq : b.run = some run
  course : run.cursor.OnCourse run.plan.script
  /-- what has passed and what is ahead make up the unrolling -/
  ahead : a.passed ++ run.cursor.ahead run.plan.script = run.plan.script.unrolling.steps
  begun : a.begun = a.passed ++ run.position?.toList
  failed : a.failed = none
  ended : a.ended = none

namespace Underway

variable {b b' : Bench} {a : Account} {run : Run} {e : Bench.Event}

theorem eq_run (h : Underway b a run) {run' : Run} (hr : b.run = some run') : run' = run :=
  Option.some.inj (hr.symm.trans h.run_eq)

/-- A step that is under way is the next of the unrolling. -/
theorem working (h : Underway b a run) (hs : b.Sound) (hp : run.phase = .working) :
    run.cursor.advance.OnCourse run.plan.script ∧
      run.cursor.ahead run.plan.script =
        run.cursor.stepIndex :: run.cursor.advance.ahead run.plan.script := by
  obtain ⟨now, step, stages, hstep, taken⟩ := hs.step run h.run_eq hp
  exact h.course.turn hstep taken

/-- Where the account stands in the unrolling. -/
theorem positions (h : Underway b a run) :
    run.plan.script.unrolling.positions =
      a.passed ++ (run.cursor.ahead run.plan.script ++ run.plan.script.unrolling.stuck.toList) := by
  rw [Unrolling.positions, ← h.ahead, List.append_assoc]

/-- A step that the run is at, when it is begun: the next of the unrolling, or where that gets
stuck. -/
inductive Next (run : Run) : Option Failure → Prop where
  | ahead {f : Option Failure} {rest : List Nat}
      (ahead : run.cursor.ahead run.plan.script = run.cursor.stepIndex :: rest) : Next run f
  | stuck (ahead : run.cursor.ahead run.plan.script = [])
      (stuck : run.plan.script.unrolling.stuck = some run.cursor.stepIndex) :
      Next run (some (.invalidLoopMark run.cursor.stepIndex))

theorem Next.head {f : Option Failure} (n : Next run f) :
    ∃ rest : List Nat, run.cursor.ahead run.plan.script ++ run.plan.script.unrolling.stuck.toList =
      run.cursor.stepIndex :: rest := by
  cases n with
  | ahead ahead => exact ⟨_, by rw [ahead, List.cons_append]⟩
  | stuck ahead stuck => exact ⟨[], by rw [ahead, stuck]; rfl⟩

/-- What an account comes to that has the same steps passed, and either no other step begun or the
one that the run is at. -/
theorem follows (h : Underway b a run) {a' : Account} (hpassed : a'.passed = a.passed)
    (hbegun : (a'.begun = a.passed ∧ a'.failed = none) ∨
      a'.begun = a.passed ++ [run.cursor.stepIndex] ∧
        ∃ f : Option Failure, Next run f ∧ a'.failed = f.map fun f => (run.cursor.stepIndex, f))
    (completed : a'.ended = some (.ok .completed) →
      run.cursor.ahead run.plan.script = [] ∧ run.plan.script.unrolling.stuck = none)
    (failed : ∀ result : Except Failure RunOutcome, a'.ended = some result → ∀ f : Failure,
      result = .error f ↔ a'.failed = some (run.cursor.stepIndex, f)) :
    a'.Follows run.plan.script.unrolling := by
  have hsteps : a.passed <+: run.plan.script.unrolling.steps := ⟨_, h.ahead⟩
  have hnot {l : Nat} (hl : run.plan.script.unrolling.stuck = some l) (hm : l ∈ a.passed) : False :=
    Script.not_mem_of_stuck hl (hsteps.subset hm)
  refine ⟨?_, hpassed ▸ hsteps, ?_, ?_, ?_, ?_⟩
  · rw [h.positions]
    rcases hbegun with ⟨hb, -⟩ | ⟨hb, f, hn, -⟩
    · rw [hb]
      exact List.prefix_append _ _
    · obtain ⟨rest, hrest⟩ := hn.head
      rw [hb, hrest, List.prefix_append_right_inj]
      exact ⟨rest, rfl⟩
  · rw [hpassed]
    rcases hbegun with ⟨hb, -⟩ | ⟨hb, -⟩
    · exact .inl hb.symm
    · exact .inr ⟨_, hb.symm⟩
  · intro hended
    obtain ⟨hahead, hstuck⟩ := completed hended
    refine ⟨?_, hstuck⟩
    rw [hpassed, ← h.ahead, hahead, List.append_nil]
  · intro result hended f
    rw [failed result hended f, h.positions, hpassed, List.getElem?_append_right (Nat.le_refl _),
      Nat.sub_self]
    rcases hbegun with ⟨-, hf⟩ | ⟨-, g, hn, hf⟩
    · simp [hf]
    · obtain ⟨rest, hrest⟩ := hn.head
      rw [hrest, hf]
      constructor
      · exact fun hfail => ⟨_, rfl, hfail⟩
      · rintro ⟨i, hi, hfail⟩
        obtain rfl := Option.some.inj hi
        exact hfail
  · intro l hl hm
    rcases hbegun with ⟨hb, -⟩ | ⟨hb, f, hn, hf⟩
    · exact (hnot hl (hb ▸ hm)).elim
    · rw [hb, List.mem_append, List.mem_singleton] at hm
      rcases hm with hm | rfl
      · exact (hnot hl hm).elim
      · cases hn with
        | ahead ahead =>
          refine (Script.not_mem_of_stuck hl ?_).elim
          rw [← h.ahead, ahead]
          simp
        | stuck => exact hf

/-- An event that does not concern the steps of the run. -/
theorem quiet (h : Underway b a run) (step : b.step e = b') {run' : Run}
    (run_eq : b'.run = some run') (plan : run'.plan = run.plan) (cursor : run'.cursor = run.cursor)
    (position : run'.position? = run.position?) (begins : b.begins? e = none)
    (stepEnd : b.stepEnd? e = none) : Underway b' (a.note b e) run' := by
  have hnote : a.note b e = a := by
    have hended := h.ended
    have hending := Bench.ending?_eq_none step run_eq
    cases a
    simp_all [Account.note]
  rw [hnote]
  refine ⟨run_eq, ?_, ?_, ?_, h.failed, h.ended⟩
  · rw [plan, cursor]
    exact h.course
  · rw [plan, cursor]
    exact h.ahead
  · rw [position]
    exact h.begun

/-- An event by which the step under way passes. -/
theorem passed (h : Underway b a run) (step : b.step e = b') {cursor : Cursor}
    (run_eq : b'.run = some { run with cursor, phase := .boundary })
    (course : cursor.OnCourse run.plan.script)
    (ahead : run.cursor.ahead run.plan.script =
      run.cursor.stepIndex :: cursor.ahead run.plan.script)
    (begun : (a.note b e).begun = a.passed ++ [run.cursor.stepIndex])
    (stepEnd : b.stepEnd? e = some (run.cursor.stepIndex, none)) :
    Underway b' (a.note b e) { run with cursor, phase := .boundary } := by
  have hpassed : (a.note b e).passed = a.passed ++ [run.cursor.stepIndex] := by
    simp [Account.note, h.ended, stepEnd]
  refine ⟨run_eq, course, ?_, ?_, ?_, ?_⟩
  · rw [hpassed, List.append_assoc, List.singleton_append, ← ahead]
    exact h.ahead
  · rw [begun, hpassed]
    exact (List.append_nil _).symm
  · simp [Account.note, h.ended, stepEnd, h.failed]
  · simp [Account.note, h.ended, Bench.ending?_eq_none step run_eq]

/-- While the run is under way, its account agrees with the unrolling. -/
theorem agrees (h : Underway b a run) (hs : b.Sound) :
    a.Follows run.plan.script.unrolling := by
  refine h.follows rfl ?_ (by simp [h.ended]) (by simp [h.ended])
  by_cases hp : run.phase = .working
  · refine .inr ⟨?_, none, .ahead (h.working hs hp).2, h.failed⟩
    rw [h.begun, Run.position?, if_pos hp]
    rfl
  · refine .inl ⟨?_, h.failed⟩
    rw [h.begun, Run.position?, if_neg hp]
    exact List.append_nil _

/-- An event by which the run ends although no step has failed. -/
theorem finished (h : Underway b a run) {outcome : RunOutcome}
    (step : b.step e = b.endRun (.ok outcome)) (boundary : run.phase = .boundary)
    (begins : b.begins? e = none) (stepEnd : b.stepEnd? e = none)
    (behind : outcome = .completed → run.plan.script.steps[run.cursor.stepIndex]? = none) :
    (a.note b e).ended = some (.ok outcome) ∧
      (a.note b e).Follows run.plan.script.unrolling := by
  have hending := Bench.ending?_endRun h.run_eq step
  have hended : (a.note b e).ended = some (.ok outcome) := by
    simp [Account.note, h.ended, hending]
  have hfailed : (a.note b e).failed = none := by
    simp [Account.note, h.ended, stepEnd, h.failed]
  refine ⟨hended, h.follows ?_ (.inl ⟨?_, hfailed⟩) ?_ ?_⟩
  · simp [Account.note, h.ended, stepEnd]
  · simp [Account.note, h.ended, begins, h.begun, Run.position?, boundary]
  · intro hc
    rw [hended] at hc
    cases hc
    exact h.course.behind (behind rfl)
  · intro result hr f
    rw [hended] at hr
    obtain rfl := Option.some.inj hr
    simp [hfailed]

/-- An event by which the run ends because the step under way fails. -/
theorem failing (h : Underway b a run) {f : Failure} {bench : Bench}
    (step : b.step e = bench.endRun (.error f)) (next : Next run (some f))
    (begun : (a.note b e).begun = a.passed ++ [run.cursor.stepIndex])
    (stepEnd : b.stepEnd? e = some (run.cursor.stepIndex, some f)) :
    (a.note b e).ended = some (.error f) ∧
      (a.note b e).Follows run.plan.script.unrolling := by
  have hending := Bench.ending?_endRun h.run_eq step
  have hended : (a.note b e).ended = some (.error f) := by
    simp [Account.note, h.ended, hending]
  have hfailed : (a.note b e).failed = some (run.cursor.stepIndex, f) := by
    simp [Account.note, h.ended, stepEnd]
  refine ⟨hended, h.follows ?_ (.inr ⟨begun, some f, next, hfailed⟩) ?_ ?_⟩
  · simp [Account.note, h.ended, stepEnd]
  · simp [hended]
  · intro result hr g
    rw [hended] at hr
    obtain rfl := Option.some.inj hr
    simp [hfailed]

/-- An event that only wakes the run, if that rests. -/
theorem woken (h : Underway b a run) {bench : Bench} (step : b.step e = bench.wakeRun)
    (run_eq : bench.run = some run) (begins : b.begins? e = none) (stepEnd : b.stepEnd? e = none) :
    ∃ run' : Run, run'.plan = run.plan ∧ Underway bench.wakeRun (a.note b e) run' := by
  obtain ⟨phase, hwake, hiff⟩ := Bench.wakeRun_eq run_eq
  refine ⟨{ run with phase }, rfl, h.quiet step (by rw [hwake]) rfl rfl ?_ begins stepEnd⟩
  simp only [Run.position?, hiff]

/-- An event by which a turn of the run ends. -/
theorem turnOver (h : Underway b a run) (hs : b.Sound) {turn : Turn} {c : Controller}
    {result : Except Failure String} {bench : Bench}
    (moving : b.moving? e = some (turn, c, .over result)) (owner : turn.owner = .run)
    (step : b.step e = bench.turnOver .run result) (run_eq : bench.run = some run) :
    (∃ run' : Run, run'.plan = run.plan ∧ Underway (b.step e) (a.note b e) run') ∨
      ((a.note b e).ended.isSome ∧ (a.note b e).Follows run.plan.script.unrolling) := by
  have begins := Bench.begins?_of_moving moving
  obtain ⟨⟨run', hr', hp⟩, -⟩ := hs.holder_run (Bench.moving?_eq_some.mp moving).1 owner
  obtain rfl := h.eq_run hr'
  obtain ⟨hcourse, hahead⟩ := h.working hs hp
  have hbegun : (a.note b e).begun = a.passed ++ [run'.cursor.stepIndex] := by
    simp [Account.note, h.ended, begins, h.begun, Run.position?, hp]
  have stepEnd : b.stepEnd? e = some (run'.cursor.stepIndex, Bench.failure? result) := by
    simp [Bench.stepEnd?, begins, hr', moving, owner]
  cases result with
  | ok answer =>
    rw [Bench.turnOver_run_ok run_eq] at step
    rw [step]
    exact .inl ⟨{ run' with cursor := run'.cursor.advance, phase := .boundary }, rfl,
      h.passed step rfl hcourse hahead hbegun stepEnd⟩
  | error f =>
    rw [Bench.turnOver_run_error run_eq] at step
    obtain ⟨hended, hfollows⟩ := h.failing step (.ahead hahead) hbegun stepEnd
    exact .inr ⟨by simp [hended], hfollows⟩

/-- An event by which a step begins. -/
theorem taken (h : Underway b a run)
    (fits : run.plan.script.iterationCount.toNat + run.plan.script.steps.count .loop ≤ UInt32.size)
    {s : Step} (begins : b.begins? .decide = some (run, s)) :
    (a.note b .decide).begun = a.passed ++ [run.cursor.stepIndex] ∧
      match run.cursor.take run.plan b.now s with
      | .turn _ => b.stepEnd? .decide = none
      | .done cursor =>
        b.stepEnd? .decide = some (run.cursor.stepIndex, none) ∧
          cursor.OnCourse run.plan.script ∧
          run.cursor.ahead run.plan.script =
            run.cursor.stepIndex :: cursor.ahead run.plan.script
      | .failed f =>
        b.stepEnd? .decide = some (run.cursor.stepIndex, some f) ∧ Next run (some f) := by
  obtain ⟨-, boundary, -, hs⟩ := Bench.begins?_decide.mp begins
  refine ⟨by simp [Account.note, h.ended, begins, h.begun, Run.position?, boundary], ?_⟩
  split
  · rename_i stages ht
    simp [Bench.stepEnd?, begins, ht]
  · rename_i cursor ht
    exact ⟨by simp [Bench.stepEnd?, begins, ht], h.course.done fits hs ht⟩
  · rename_i f ht
    refine ⟨by simp [Bench.stepEnd?, begins, ht], ?_⟩
    rcases h.course.failed fits hs ht with ⟨rest, hahead⟩ | ⟨rfl, hahead, hstuck⟩
    · exact .ahead hahead
    · exact .stuck hahead hstuck

/-- An event by which a step begins that needs the controller. -/
theorem begun_turn (h : Underway b a run) (step : b.step e = b')
    (run_eq : b'.run = some { run with phase := .working })
    (begun : (a.note b e).begun = a.passed ++ [run.cursor.stepIndex])
    (stepEnd : b.stepEnd? e = none) :
    Underway b' (a.note b e) { run with phase := .working } := by
  have hpassed : (a.note b e).passed = a.passed := by simp [Account.note, h.ended, stepEnd]
  refine ⟨run_eq, h.course, ?_, ?_, ?_, ?_⟩
  · rw [hpassed]
    exact h.ahead
  · rw [begun, hpassed]
    rfl
  · simp [Account.note, h.ended, stepEnd, h.failed]
  · simp [Account.note, h.ended, Bench.ending?_eq_none step run_eq]

/-- **Every event takes a run under way along the unrolling, or ends it in agreement with that.** -/
theorem move (h : Underway b a run) (hs : b.Sound)
    (fits : run.plan.script.iterationCount.toNat + run.plan.script.steps.count .loop ≤ UInt32.size)
    (step : b.step e = b') (hm : Bench.Move b e b') :
    (∃ run' : Run, run'.plan = run.plan ∧ Underway b' (a.note b e) run') ∨
      ((a.note b e).ended.isSome ∧ (a.note b e).Follows run.plan.script.unrolling) := by
  have hr := h.run_eq
  cases hm with
  | idle begins moving =>
    have stepEnd : b.stepEnd? e = none := by simp [Bench.stepEnd?, begins, moving]
    exact .inl ⟨run, rfl, h.quiet step hr rfl rfl rfl begins stepEnd⟩
  | pass span =>
    obtain ⟨begins, stepEnd⟩ := Bench.quiet_of_not_holders (b := b) (e := .pass span) rfl (by simp)
    exact .inl ⟨run, rfl, h.quiet step hr rfl rfl rfl begins stepEnd⟩
  | start accepted idle =>
    rw [hs.running, hr] at idle
    cases idle
  | wish e wish =>
    obtain ⟨hholders, hdecide⟩ := Bench.Event.not_holders_of_wish wish
    obtain ⟨begins, stepEnd⟩ := Bench.quiet_of_not_holders (b := b) hholders hdecide
    exact .inl (h.woken step hr begins stepEnd)
  | poll =>
    obtain ⟨begins, stepEnd⟩ := Bench.quiet_of_not_holders (b := b) (e := .poll) rfl (by simp)
    exact .inl (h.woken step hr begins stepEnd)
  | queue guest stages =>
    obtain ⟨begins, stepEnd⟩ :=
      Bench.quiet_of_not_holders (b := b) (e := .queue guest stages) rfl (by simp)
    exact .inl ⟨run, rfl, h.quiet step (by simpa using hr) rfl rfl rfl begins stepEnd⟩
  | withdraw guest =>
    obtain ⟨begins, stepEnd⟩ :=
      Bench.quiet_of_not_holders (b := b) (e := .withdraw guest) rfl (by simp)
    exact .inl ⟨run, rfl, h.quiet step hr rfl rfl rfl begins stepEnd⟩
  | busy moving =>
    have begins := Bench.begins?_of_moving moving
    have stepEnd := Bench.stepEnd?_eq_none begins (by simp [moving])
    exact .inl ⟨run, rfl, h.quiet step hr rfl rfl rfl begins stepEnd⟩
  | @finish _ turn c result moving =>
    by_cases owner : turn.owner = .run
    · rw [owner] at step ⊢
      exact step ▸ h.turnOver hs moving owner step hr
    · have begins := Bench.begins?_of_moving moving
      have stepEnd := Bench.stepEnd?_eq_none begins fun turn' c' result' hm => by
        rw [moving] at hm
        cases hm
        exact owner
      refine .inl ⟨run, rfl, h.quiet step ?_ rfl rfl rfl begins stepEnd⟩
      rw [Bench.turnOver_guest owner, Bench.handOn_eq]
      exact hr
  | @stopped run' run_eq boundary stop begins =>
    obtain rfl := h.eq_run run_eq
    have stepEnd := Bench.stepEnd?_of_not_holders rfl begins
    obtain ⟨hended, hfollows⟩ := h.finished step boundary begins stepEnd (by simp)
    exact .inr ⟨by simp [hended], hfollows⟩
  | @rest run' run_eq boundary pause begins =>
    obtain rfl := h.eq_run run_eq
    have stepEnd := Bench.stepEnd?_of_not_holders rfl begins
    refine .inl ⟨{ run' with phase := .resting (b.now + Bench.pausePoll) }, rfl,
      h.quiet step rfl rfl rfl ?_ begins stepEnd⟩
    simp [Run.position?, boundary]
  | @completed run' run_eq boundary behind begins =>
    obtain rfl := h.eq_run run_eq
    have stepEnd := Bench.stepEnd?_of_not_holders rfl begins
    obtain ⟨hended, hfollows⟩ := h.finished step boundary begins stepEnd fun _ => behind
    exact .inr ⟨by simp [hended], hfollows⟩
  | @takeTurn run' s stages begins taken =>
    obtain rfl := h.eq_run (Bench.begins?_decide.mp begins).1
    obtain ⟨begun, stepEnd⟩ := h.taken fits begins
    rw [taken] at stepEnd
    exact .inl ⟨{ run' with phase := .working }, rfl, h.begun_turn step (by simp) begun stepEnd⟩
  | @takeDone run' s cursor begins taken =>
    obtain rfl := h.eq_run (Bench.begins?_decide.mp begins).1
    obtain ⟨begun, hend⟩ := h.taken fits begins
    rw [taken] at hend
    obtain ⟨stepEnd, course, ahead⟩ := hend
    exact .inl ⟨{ run' with cursor, phase := .boundary }, rfl,
      h.passed step rfl course ahead begun stepEnd⟩
  | @takeFailed run' s f begins taken =>
    obtain rfl := h.eq_run (Bench.begins?_decide.mp begins).1
    obtain ⟨begun, hend⟩ := h.taken fits begins
    rw [taken] at hend
    obtain ⟨stepEnd, next⟩ := hend
    obtain ⟨hended, hfollows⟩ := h.failing step next begun stepEnd
    exact .inr ⟨by simp [hended], hfollows⟩

end Underway

namespace Bench

/-- What holds of the bench and the account all along: the run is under way, or it has ended in
agreement with the unrolling. -/
def Accounted (plan : Plan) (s : Bench × Account) : Prop :=
  s.1.Sound ∧
    ((∃ run : Run, run.plan = plan ∧ Underway s.1 s.2 run) ∨
      (s.2.ended.isSome ∧ s.2.Follows plan.script.unrolling))

theorem Accounted.watch {plan : Plan} {s : Bench × Account} (h : Accounted plan s)
    (fits : plan.script.iterationCount.toNat + plan.script.steps.count .loop ≤ UInt32.size)
    (e : Event) : Accounted plan (watch s e) := by
  obtain ⟨hs, hrun⟩ := h
  refine ⟨hs.step_event e, ?_⟩
  rcases hrun with ⟨run, rfl, hrun⟩ | ⟨hended, hfollows⟩
  · exact hrun.move hs fits rfl (s.1.move e)
  · have hnote : s.2.note s.1 e = s.2 := by rw [Account.note, if_pos hended]
    exact .inr (by simpa [Bench.watch, hnote] using ⟨hended, hfollows⟩)

theorem Accounted.foldl {plan : Plan} {s : Bench × Account} (h : Accounted plan s)
    (fits : plan.script.iterationCount.toNat + plan.script.steps.count .loop ≤ UInt32.size)
    (events : List Event) : Accounted plan (events.foldl Bench.watch s) := by
  induction events generalizing s with
  | nil => exact h
  | cons e events ih => exact ih (h.watch fits e)

/-- A run just begun has all of the unrolling ahead. -/
theorem Accounted.start {plan : Plan} {b b' : Bench} (h : b.start plan = .ok b')
    (hs : b'.Sound) : Accounted plan (b', {}) := by
  rw [Bench.start] at h
  split at h
  · cases h
  · cases h
    refine ⟨hs, .inl ⟨_, rfl, rfl, .start _, ?_, rfl, rfl, rfl⟩⟩
    exact Script.ahead_start plan.script

theorem plan_script {r : RunRequest} {plan : Plan} (h : r.plan = .ok plan) :
    plan.script = r.script := by
  rw [RunRequest.plan] at h
  grind

/-- **A run does what its script says.**  Whatever has happened before the request, and whatever is
asked, answered and waited for after it, the account of the run agrees with the script unrolled; and
as long as no end is noted, the run is under way. -/
theorem account_follows {settings : MotionSettings} {before : List Event} {r : RunRequest}
    {b : Bench} (accepted : ((fresh settings).steps before).request r = .ok b)
    (fits : r.script.iterationCount.toNat + r.script.steps.count .loop < UInt32.size)
    (events : List Event) :
    (b.account events).Follows r.script.unrolling ∧
      ((b.account events).ended = none →
        ∃ run : Run, (b.steps events).run = some run ∧ run.plan.script = r.script) := by
  have hs := (Sound.of_fresh settings).steps before
  cases hp : r.plan with
  | error f =>
    rw [request_of_fault hp] at accepted
    cases accepted
  | ok plan =>
    have hscript := plan_script hp
    have hstart := Accounted.start ((request_of_plan hp).symm.trans accepted) (hs.request accepted)
    obtain ⟨hs', hacc⟩ := hstart.foldl (by rw [hscript]; exact Nat.le_of_lt fits) events
    rw [foldl_watch_fst] at hacc hs'
    rw [← hscript]
    rcases hacc with ⟨run, rfl, hrun⟩ | ⟨hended, hfollows⟩
    · exact ⟨hrun.agrees hs', fun _ => ⟨run, hrun.run_eq, rfl⟩⟩
    · refine ⟨hfollows, fun hnone => ?_⟩
      rw [account] at hnone
      rw [hnone] at hended
      cases hended

/-- A script that loops over nothing, to be passed through twice. -/
def twice : RunRequest where
  script := { iterations := some (.count 2), steps := [.mark, .loop] }
  left := some {}

theorem account_follows_twice :
    ∃ b : Bench, ((fresh {}).steps []).request twice = .ok b ∧
      twice.script.iterationCount.toNat + twice.script.steps.count .loop < UInt32.size ∧
      (b.account [.decide, .decide, .decide, .decide]).Follows ⟨[0, 1, 1], none⟩ ∧
      (b.account [.decide, .decide, .decide, .decide]).ended = some (.ok .completed) :=
  ⟨_, rfl, by decide, (@account_follows {} [] twice _ rfl (by decide) _).1, rfl⟩

end Bench

end Stylus
