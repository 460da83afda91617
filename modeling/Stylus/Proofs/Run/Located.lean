import Stylus.Proofs.Layout.Unlocated
import Stylus.Proofs.Run.Homed
import Stylus.Proofs.Run.Progress
import Stylus.Proofs.Run.Undisturbed

/-!
# What a layout lacks is what a run fails for

Nobody looks at the locations of a script before its run is at them, but a layout can be asked for
those that it lacks.  The answer is right: it takes the sides of the steps as the run does, and the
run comes to a step for the first time only after all those before it.

* `Plan.fault?` — the failure of the first location of a step that does not resolve;
* `Cursor.cause_of_failed` — why a step fails before it needs the controller;
* `Bench.Explained` — why steps fail at all;
* `Searching` — what holds of an undisturbed run until it ends: what is behind it resolves;
* `Plan.outcome`, `Layout.Foretells` — how such a run ends, by its plan and by what its layout
  lacks;
* `Bench.unlocated_foretells` — **what a layout lacks foretells where runs fail**.
-/

set_option autoImplicit false

namespace Stylus

/-! ## Steps -/

namespace Plan

/-- The failure of the first location of a step that does not resolve. -/
def fault? (plan : Plan) (step : Step) : Option Failure :=
  step.locations.findSome? fun name => Bench.failure? (plan.resolve step.side name)

/-- How a run ends if nothing fails but locations. -/
def outcome (plan : Plan) : Except Failure RunOutcome :=
  match plan.script.steps.findSome? plan.fault? with
  | none => .ok .completed
  | some f => .error f

variable {plan : Plan}

theorem outcome_of_resolved {i : Nat}
    (behind : ∀ j < i, ∀ step, plan.script.steps[j]? = some step → plan.fault? step = none)
    (last : plan.script.steps[i]? = none) : plan.outcome = .ok .completed := by
  have hnone : plan.script.steps.findSome? plan.fault? = none := by
    refine List.findSome?_eq_none_iff.mpr fun step hstep => ?_
    obtain ⟨j, hj⟩ := List.getElem?_of_mem hstep
    have hlt := (List.getElem?_eq_some_iff.mp hj).1
    have hle := List.getElem?_eq_none_iff.mp last
    exact behind j (Nat.lt_of_lt_of_le hlt hle) step hj
  rw [outcome, hnone]

theorem outcome_of_fault {i : Nat} {step : Step} {f : Failure}
    (behind : ∀ j < i, ∀ step, plan.script.steps[j]? = some step → plan.fault? step = none)
    (hstep : plan.script.steps[i]? = some step) (fault : plan.fault? step = some f) :
    plan.outcome = .error f := by
  have hsome : plan.script.steps.findSome? plan.fault? = some f := by
    obtain ⟨hi, rfl⟩ := List.getElem?_eq_some_iff.mp hstep
    refine List.findSome?_eq_some_iff.mpr
      ⟨plan.script.steps.take i, _, plan.script.steps.drop (i + 1), ?_, fault, fun x hx => ?_⟩
    · rw [← List.drop_eq_getElem_cons hi, List.take_append_drop]
    · obtain ⟨j, hj, rfl⟩ := List.mem_take_iff_getElem.mp hx
      exact behind j (by omega) _ (List.getElem?_eq_getElem (by omega))
  rw [outcome, hsome]

end Plan

namespace Cursor

variable {plan : Plan} {cursor : Cursor} {now : Nat} {step : Step}

/-- **Why a step fails before it needs the controller**: for a location, a time or a loop. -/
theorem cause_of_failed {f : Failure} (taken : cursor.take plan now step = .failed f) :
    plan.fault? step = some f ∨ (∃ spec, step = .wait spec ∧ f = .invalidTimeSpec spec) ∨
      (step = .loop ∧ cursor.loopBack = .failed f ∧ f = .invalidLoopMark cursor.stepIndex) := by
  cases take_iff.mp taken with
  | noPlace unresolved =>
    exact .inl (by simp [Plan.fault?, Step.locations, Step.side, unresolved, Bench.failure?])
  | noStart unresolved =>
    exact .inl (by simp [Plan.fault?, Step.locations, Step.side, unresolved, Bench.failure?])
  | noGoal resolved unresolved =>
    exact .inl (by simp [Plan.fault?, Step.locations, Step.side, resolved, unresolved,
      Bench.failure?])
  | noSpan => exact .inr (.inl ⟨_, rfl, rfl⟩)
  | tooLate => exact .inr (.inl ⟨_, rfl, rfl⟩)
  | noMark => exact .inr (.inr ⟨rfl, taken, rfl⟩)

/-- A step that does not fail has no location that does not resolve. -/
theorem fault?_of_taken {result : Taken} (taken : cursor.take plan now step = result)
    (passes : ∀ f, result ≠ .failed f) : plan.fault? step = none := by
  cases take_iff.mp taken with
  | tap resolved => simp [Plan.fault?, Step.locations, Step.side, resolved, Bench.failure?]
  | swipe resolved resolved' =>
    simp [Plan.fault?, Step.locations, Step.side, resolved, resolved', Bench.failure?]
  | noPlace | noStart | noGoal => exact absurd rfl (passes _)
  | _ => rfl

end Cursor

/-! ## Why steps fail -/

/-- The failure is one of the plotter, or one that the step comes to before it needs that. -/
def Plan.Causes (plan : Plan) (i : Nat) (f : Failure) : Prop :=
  f = .notHomed ∨ f.isOfLink = true ∨ ∃ (step : Step) (cursor : Cursor) (now : Nat),
    plan.script.steps[i]? = some step ∧ cursor.take plan now step = .failed f

namespace Bench

variable {plan : Plan} {b b' : Bench} {a : Account} {run : Run} {e : Event}

/-- The run under way is of the plan, and the failure on the account, if there is one, has its
cause. -/
structure Explained (plan : Plan) (b : Bench) (a : Account) : Prop where
  run : a.ended = none → ∃ run : Run, b.run = some run ∧ run.plan = plan
  failed : ∀ i f, a.failed = some (i, f) → plan.Causes i f

theorem Explained.event (h : Explained plan b a) (hs : b.Sound) (genuine : e.isGenuine = true) :
    Explained plan (b.step e) (a.note b e) := by
  cases hended : a.ended with
  | some result =>
    have hsome : a.ended.isSome = true := by rw [hended]; rfl
    rw [Account.note_of_ended hsome]
    refine ⟨fun active => ?_, h.failed⟩
    rw [active] at hsome
    cases hsome
  | none =>
    obtain ⟨run, hr, rfl⟩ := h.run hended
    refine ⟨fun active => ?_, fun i f hfailed => ?_⟩
    · rw [Account.note_ended hended] at active
      rcases goesOn_or_ends hs hr e with goes | ⟨bench, result, ends⟩
      · exact goes
      · rw [ending?_endRun hr ends] at active
        cases active
    · rw [Account.note_failed hended] at hfailed
      split at hfailed
      · rename_i stepEnd
        cases hfailed
        cases begins : b.begins? e with
        | none =>
          rcases error_of_stepEnd? begins stepEnd genuine with hf | hf
          · exact .inl hf
          · exact .inr (.inl hf)
        | some begun =>
          obtain ⟨run', step⟩ := begun
          obtain rfl : e = .decide := by
            cases e with
            | decide => rfl
            | _ => cases begins
          obtain ⟨hr', -, -, hstep⟩ := begins?_decide.mp begins
          obtain rfl := Option.some.inj (hr.symm.trans hr')
          simp only [stepEnd?, begins] at stepEnd
          split at stepEnd <;> cases stepEnd
          rename_i taken
          exact .inr (.inr ⟨step, _, _, hstep, taken⟩)
      · exact h.failed i f hfailed

theorem Explained.events (h : Explained plan b a) (hs : b.Sound) {events : List Event}
    (genuine : ∀ e ∈ events, e.isGenuine = true) :
    Explained plan (b.steps events) (events.foldl watch (b, a)).2 := by
  induction events generalizing b a with
  | nil => exact h
  | cons e events ih =>
    exact ih (h.event hs (genuine e List.mem_cons_self)) (hs.step_event e)
      fun e' he' => genuine e' (List.mem_cons_of_mem _ he')

end Bench

/-! ## Undisturbed runs -/

namespace Underway

variable {b b' : Bench} {a : Account} {run run' : Run} {e : Bench.Event}

/-- A run that is still there after an event is under way. -/
theorem follow (h : Underway b a run) (hs : b.Sound) (fits : run.plan.script.CountFits)
    (step : b.step e = b') (run_eq : b'.run = some run') : Underway b' (a.note b e) run' := by
  rcases h.move hs fits step (step ▸ b.move e) with ⟨now, -, under⟩ | ⟨ended, -⟩
  · rwa [under.eq_run run_eq]
  · rw [Account.ended_of_run h.ended step run_eq] at ended
    cases ended

end Underway

/-- What is asked of the loops of a script: every one has a mark before it, and they can be
counted. -/
structure Script.LoopsValid (script : Script) : Prop where
  marked : ∀ l : Nat, script.steps[l]? = some .loop → ∃ m < l, script.steps[m]? = some .mark
  fits : script.CountFits

/-- **What holds of an undisturbed run until it ends.** -/
structure Searching (plan : Plan) (b : Bench) (a : Account) (run : Run) : Prop where
  underway : Underway b a run
  plan_eq : run.plan = plan
  homed : b.controller.pose.homed = true
  stop : b.runner.control.stop = false
  lone : b.Lone
  tallied : run.cursor.Tallied plan.script
  /-- the steps behind the run have no location that does not resolve -/
  behind : ∀ j < run.cursor.stepIndex, ∀ step, plan.script.steps[j]? = some step →
    plan.fault? step = none

namespace Bench

/-- Wishes other than a stop do not add one. -/
theorem Event.stop_of_wished {e : Event} (pausing : e.pausing = true) {r : Runner}
    (stop : r.control.stop = false) : (e.wished r).control.stop = false := by
  cases wish : e.wish? with
  | none => rwa [wished, wish]
  | some change =>
    rw [wished, wish]
    exact stop_of_pausing pausing wish stop

end Bench

namespace Searching

open Bench

variable {plan : Plan} {b b' : Bench} {a : Account} {run run' : Run} {e : Event}

/-- An event by which no step is completed. -/
theorem quiet (h : Searching plan b a run) (underway : Underway b' (a.note b e) run')
    (homed : b'.controller.pose.homed = true) (lone : b'.Lone) (plan_eq : run'.plan = run.plan)
    (cursor : run'.cursor = run.cursor) (stop : b'.runner.control.stop = false) :
    Searching plan b' (a.note b e) run' :=
  ⟨underway, plan_eq.trans h.plan_eq, homed, stop, lone, cursor ▸ h.tallied, cursor ▸ h.behind⟩

/-- When a step has been completed, that is behind the run as well. -/
theorem behind_of_passed (h : Searching plan b a run) {step : Step}
    (hstep : plan.script.steps[run.cursor.stepIndex]? = some step)
    (fault : plan.fault? step = none) {i : Nat} (hi : i ≤ run.cursor.stepIndex + 1) :
    ∀ j < i, ∀ step, plan.script.steps[j]? = some step → plan.fault? step = none := by
  intro j hj step' hstep'
  rcases Nat.lt_or_eq_of_le (Nat.le_of_lt_succ (Nat.lt_of_lt_of_le hj hi)) with hlt | rfl
  · exact h.behind j hlt step' hstep'
  · obtain rfl := Option.some.inj (hstep.symm.trans hstep')
    exact fault

/-- A step that is done at once leads no further than behind it. -/
theorem stepIndex_le_of_done (h : Searching plan b a run) {cursor : Cursor} {now : Nat}
    {step : Step} (taken : run.cursor.take plan now step = .done cursor) :
    cursor.stepIndex ≤ run.cursor.stepIndex + 1 := by
  rcases Cursor.place_of_done taken with ⟨-, index⟩ | ⟨-, -, m, hm, index | index⟩
  · exact Nat.le_of_eq index
  · have hbefore := h.tallied.mark m hm
    omega
  · exact Nat.le_of_eq index

/-- A step that fails before it needs the controller does so for a location, if times and loops are
valid. -/
theorem fault_of_refused (h : Searching plan b a run) (loops : plan.script.LoopsValid) {step : Step}
    {f : Failure} (hstep : plan.script.steps[run.cursor.stepIndex]? = some step)
    (timely : ∀ spec, step = .wait spec → Plan.Timely b.now spec)
    (taken : run.cursor.take plan b.now step = .failed f) : plan.fault? step = some f := by
  have hcourse := h.underway.course
  rw [h.plan_eq] at hcourse
  rcases Cursor.cause_of_failed taken with hfault | ⟨spec, rfl, -⟩ | ⟨rfl, hloop, -⟩
  · exact hfault
  · obtain ⟨span, hspan, htime⟩ := timely spec rfl
    cases taken.symm.trans (Cursor.take_iff.mpr (.wait hspan (if_pos htime)))
  · rcases hcourse.loopBack loops.fits hstep with ⟨cursor, hdone, -⟩ | ⟨-, -, hstuck⟩
    · rw [hdone] at hloop
      cases hloop
    · rw [Script.stuck_of_marked loops.marked] at hstuck
      cases hstuck

/-- **An event that disturbs the run by no more than a pause takes it past steps that resolve, or
ends it as its plan says.** -/
theorem event (h : Searching plan b a run) (hs : b.Sound) (loops : plan.script.LoopsValid)
    (pausing : e.pausing = true)
    (timely : ∀ (run : Run) (spec : String), b.begins? e = some (run, .wait spec) →
      Plan.Timely b.now spec) :
    (∃ run', Searching plan (b.step e) (a.note b e) run') ∨
      (a.note b e).ended = some plan.outcome := by
  have hr := h.underway.run_eq
  have active := h.underway.ended
  have homed := homed_step hs h.homed e
  have lone := h.lone.event hs pausing
  have hm := runMove hs hr e
  have hfits : run.plan.script.CountFits := by
    rw [h.plan_eq]
    exact loops.fits
  have follow {b' : Bench} {now : Run} (step : b.step e = b') (run_eq : b'.run = some now) :
      Underway b' (a.note b e) now := h.underway.follow hs hfits step run_eq
  generalize hstep : b.step e = b' at hm homed lone ⊢
  have ends {bench : Bench} {result : Except Failure RunOutcome} (hend : b' = bench.endRun result)
      (expected : plan.outcome = result) : (a.note b e).ended = some plan.outcome := by
    rw [Account.ended_of_endRun active hr (hstep.trans hend), expected]
  cases hm with
  | stays run_eq runner =>
    have stop : b'.runner.control.stop = false := runner ▸ e.stop_of_wished pausing h.stop
    exact .inl ⟨_, h.quiet (follow hstep run_eq) homed lone rfl rfl stop⟩
  | wakes _ run_eq runner =>
    have stop : b'.runner.control.stop = false := runner ▸ e.stop_of_wished pausing h.stop
    exact .inl ⟨_, h.quiet (follow hstep run_eq) homed lone rfl rfl stop⟩
  | rests => exact .inl ⟨_, h.quiet (follow hstep rfl) homed lone rfl rfl h.stop⟩
  | begins =>
    refine .inl ⟨_, h.quiet (follow hstep (queue_run _ _ _)) homed lone rfl rfl ?_⟩
    rw [queue_runner]
    exact h.stop
  | @does step cursor begins taken =>
    obtain ⟨-, -, -, hs'⟩ := begins?_decide.mp begins
    have hroom := not_full_of_onCourse h.underway.course
    rw [h.plan_eq] at hs' taken hroom
    have hresolved : plan.fault? step = none := Cursor.fault?_of_taken taken (by simp)
    refine .inl ⟨_, follow hstep rfl, h.plan_eq, homed, h.stop, lone, ?_,
      h.behind_of_passed hs' hresolved (h.stepIndex_le_of_done taken)⟩
    refine h.tallied.done hs' ?_ taken
    rintro rfl -
    exact Nat.ne_of_lt (hroom hs')
  | @refused step f begins taken =>
    obtain ⟨-, -, -, hs'⟩ := begins?_decide.mp begins
    rw [h.plan_eq] at hs' taken
    have hfault :=
      h.fault_of_refused loops hs' (fun spec hspec => timely run spec (hspec ▸ begins)) taken
    exact .inr (ends rfl (Plan.outcome_of_fault h.behind hs' hfault))
  | @passes _ bench working runner =>
    obtain ⟨now, step, stages, hs', taken⟩ := hs.step run hr working
    rw [h.plan_eq] at hs' taken
    have hresolved : plan.fault? step = none := Cursor.fault?_of_taken taken (by simp)
    have stop : (bench.passStep run run.cursor.advance).runner.control.stop = false := by
      rw [passStep, runner]
      exact h.stop
    exact .inl ⟨_, follow hstep rfl, h.plan_eq, homed, stop, lone, h.tallied.turn hs' taken,
      h.behind_of_passed hs' hresolved (Nat.le_refl _)⟩
  | fails _ _ begins stepEnd =>
    -- on a homed plotter that acknowledges everything no turn fails
    obtain ⟨turn, c, moving⟩ := moving?_of_stepEnd? begins stepEnd
    exact ((Turn.moved?_goes ⟨rfl, h.homed⟩ (Event.good_of_pausing pausing)
      (moving?_eq_some.mp moving).2).2).elim
  | stopped _ stop =>
    rw [h.stop] at stop
    cases stop
  | completed _ _ last =>
    rw [h.plan_eq] at last
    exact .inr (ends rfl (Plan.outcome_of_resolved h.behind last))

/-- A run that has just begun on a free and homed plotter has nothing behind it. -/
theorem start {b : Bench} (hs : b.Sound) (free : b.holder = none)
    (homed : b.controller.pose.homed = true) (h : b.start plan = .ok b') :
    ∃ run, Searching plan b' {} run := by
  rw [Bench.start] at h
  split at h <;> cases h
  refine ⟨_, ⟨rfl, .start _, Script.ahead_start plan.script, rfl, rfl, rfl⟩, rfl, homed, rfl,
    .of_free (hs.free free) free, .start plan.script, fun j hj => ?_⟩
  exact absurd hj (Nat.not_lt_zero j)

/-- **Pauses apart, an undisturbed run is on its way or has ended as its plan says.** -/
theorem events (h : Searching plan b a run) (hs : b.Sound) (loops : plan.script.LoopsValid)
    {events : List Event} (pausing : ∀ e ∈ events, e.pausing = true)
    (timely : b.WaitsTimely events) :
    (∃ run', Searching plan (b.steps events) (events.foldl watch (b, a)).2 run') ∨
      (events.foldl watch (b, a)).2.ended = some plan.outcome := by
  induction events generalizing b a run with
  | nil => exact .inl ⟨run, h⟩
  | cons e events ih =>
    rcases h.event hs loops (pausing e List.mem_cons_self) timely.1 with ⟨run', h'⟩ | ended
    · exact ih h' (hs.step_event e) (fun e' he' => pausing e' (List.mem_cons_of_mem _ he')) timely.2
    · have hsome : (watch (b, a) e).2.ended.isSome = true := by
        rw [watch, ended]
        rfl
      rw [List.foldl_cons, ended_foldl_watch hsome]
      exact .inr ended

/-- When it is not to pause it goes on. -/
theorem going (h : Searching plan b a run) (hs : b.Sound)
    (resumed : b.runner.control.pause = false) : Going plan b := by
  have calm : b.runner.control = {} := by
    have stop := h.stop
    cases hcontrol : b.runner.control with
    | mk pause stop => simp_all
  exact ⟨hs, calm, h.lone, a, run, h.plan_eq, h.underway⟩

end Searching

/-! ## What a layout foretells -/

/-- **How a run of a script on a side ends**, by what the layout lacks. -/
inductive Layout.Foretells (layout : Layout) (script : Script) (side : Side) :
    Except Failure RunOutcome → Prop where
  | completed (nothing : layout.unlocated script side = []) :
      Foretells layout script side (.ok .completed)
  /-- it fails for the first location that is lacking, in the order of steps and of what they
  touch -/
  | unresolved {name : String} (first : (script.steps.flatMap Step.locations).find?
      (· ∈ layout.unlocated script side) = some name) :
      Foretells layout script side (.error (.unresolvedLocation side name))

/-- A request to run a script for one device on a side with this layout, where no step names the
other side. -/
structure RunRequest.RunsOn (r : RunRequest) (layout : Layout) : Prop where
  single : r.script.isDual = false
  own : ∀ step ∈ r.script.steps, ∀ side, step.side = some side → side = r.chosenSide
  layout : r.layout? r.chosenSide = some layout

theorem findSome?_congr {α β : Type} {f g : α → Option β} {xs : List α} (h : ∀ x ∈ xs, f x = g x) :
    xs.findSome? f = xs.findSome? g := by
  induction xs with
  | nil => rfl
  | cons x xs ih =>
    obtain ⟨hx, hxs⟩ := List.forall_mem_cons.mp h
    rw [List.findSome?_cons, List.findSome?_cons, hx, ih hxs]

namespace RunRequest.RunsOn

variable {r : RunRequest} {layout : Layout} {plan : Plan}

theorem concerns (h : r.RunsOn layout) {step : Step} (hstep : step ∈ r.script.steps) :
    Layout.concerns r.chosenSide step = true := by
  rw [Layout.concerns]
  split
  · rename_i side hside
    exact decide_eq_true (h.own step hstep side hside)
  · rfl

/-- Every location resolves through the layout. -/
theorem resolve (h : r.RunsOn layout) (covers : plan.Covers r) {step : Step}
    (hstep : step ∈ r.script.steps) (name : String) :
    plan.resolve step.side name = layout.resolve r.chosenSide name := by
  have hside : step.side.getD plan.defaultSide = r.chosenSide := by
    cases hnamed : step.side with
    | none => exact covers.single h.single
    | some side => exact h.own step hstep side hnamed
  rw [Plan.resolve, hside, covers.layouts, h.layout]

/-- The failure of a step is that of its first location that is lacking. -/
theorem fault? (h : r.RunsOn layout) (covers : plan.Covers r) {step : Step}
    (hstep : step ∈ r.script.steps) :
    plan.fault? step = (step.locations.find? (· ∈ layout.unlocated r.script r.chosenSide)).map
      (.unresolvedLocation r.chosenSide) := by
  rw [← List.findSome?_guard, List.map_findSome?]
  refine findSome?_congr fun name touched => ?_
  rw [h.resolve covers hstep, Function.comp_apply, Option.guard]
  have hlisted := layout.mem_unlocated_iff_resolve hstep (h.concerns hstep) touched
  by_cases hname : name ∈ layout.unlocated r.script r.chosenSide
  · rw [hlisted.mp hname, if_pos (decide_eq_true hname)]
    rfl
  · rw [if_neg (by simpa using hname)]
    cases hresolve : layout.resolve r.chosenSide name with
    | ok p => rfl
    | error f =>
      obtain ⟨-, rfl⟩ := Layout.resolve_eq_error.mp hresolve
      exact absurd (hlisted.mpr hresolve) hname

/-- **The plan comes to what the layout foretells.** -/
theorem foretells (h : r.RunsOn layout) (covers : plan.Covers r) :
    layout.Foretells r.script r.chosenSide plan.outcome := by
  have hfault : plan.script.steps.findSome? plan.fault? =
      ((r.script.steps.flatMap Step.locations).find?
        (· ∈ layout.unlocated r.script r.chosenSide)).map (.unresolvedLocation r.chosenSide) := by
    rw [covers.script, List.find?_flatMap, List.map_findSome?]
    exact findSome?_congr fun step hstep => h.fault? covers hstep
  rw [Plan.outcome, hfault]
  cases hfirst : (r.script.steps.flatMap Step.locations).find?
      (· ∈ layout.unlocated r.script r.chosenSide) with
  | some name => exact .unresolved hfirst
  | none =>
    refine .completed (List.eq_nil_iff_forall_not_mem.mpr fun name hname => ?_)
    have hnot := List.find?_eq_none.mp hfirst name (Layout.exists_of_mem_unlocated hname)
    exact hnot (decide_eq_true hname)

end RunRequest.RunsOn

/-- **A location that does not resolve is one that the layout of its side lacks.** -/
theorem Plan.unlocated_of_fault {r : RunRequest} {plan : Plan} (covers : plan.Covers r)
    {step : Step} (hstep : step ∈ r.script.steps) {side : Side} {name : String}
    (fault : plan.fault? step = some (.unresolvedLocation side name)) :
    ∃ layout, r.layout? side = some layout ∧ name ∈ layout.unlocated r.script side := by
  obtain ⟨location, touched, hfailure⟩ := List.exists_of_findSome?_eq_some fault
  cases hresolve : plan.resolve step.side location with
  | ok p =>
    rw [hresolve] at hfailure
    cases hfailure
  | error f =>
    rw [hresolve] at hfailure
    obtain rfl := Option.some.inj hfailure
    rw [resolve, covers.layouts] at hresolve
    split at hresolve
    · cases hresolve
    · rename_i layout hlayout
      obtain ⟨-, hf⟩ := Layout.resolve_eq_error.mp hresolve
      obtain ⟨rfl, rfl⟩ := Failure.unresolvedLocation.inj hf
      have concerned : Layout.concerns (step.side.getD plan.defaultSide) step = true := by
        rw [Layout.concerns]
        cases step.side with
        | none => rfl
        | some side => exact decide_eq_true rfl
      exact ⟨layout, hlayout,
        (layout.mem_unlocated_iff_resolve hstep concerned touched).mpr hresolve⟩

/-! ## Runs -/

namespace Bench

variable {settings : MotionSettings} {before : List Event} {r : RunRequest} {b : Bench}

/-- **How an undisturbed run goes whose end is foretold**, along events that do no more than pause
it. -/
structure EndsAs (b : Bench) (events : List Event) (foretold : Except Failure RunOutcome → Prop) :
    Prop where
  /-- it ends in no other way -/
  result : ∀ result, (b.account events).ended = some result → foretold result
  /-- until then it can go on, and needs nobody for it -/
  goes : (b.account events).ended = none → ∃ (span : Nat) (e : Event),
    e.undisturbed = true ∧ ((b.steps events).step (.pass span)).advances e = true
  /-- when it is not to pause any longer, it comes to its end -/
  ends : (b.steps events).runner.control.pause = false → ∃ n : Nat, ∀ later : List Event,
    (∀ e ∈ later, e.going = true) → b.WaitsTimely (events ++ later) →
      n ≤ (b.steps events).advancesIn later →
        ∃ result, (b.account (events ++ later)).ended = some result ∧ foretold result

/-- **What the lists of what layouts lack say of a run** that was asked for by `r` after
`before`. -/
structure Foretold (settings : MotionSettings) (before : List Event) (r : RunRequest) (b : Bench) :
    Prop where
  /-- a list is in strict order, so it names everything once -/
  ascending : ∀ (layout : Layout) (script : Script) (side : Side),
    (layout.unlocated script side).Pairwise (· < ·)
  /-- if nothing is listed, no step fails for a location, whatever happens -/
  resolves : (∀ side layout, r.layout? side = some layout → layout.unlocated r.script side = []) →
    ∀ events : List Event, (∀ e ∈ events, e.isGenuine = true) → ∀ i side name,
      (b.account events).failed ≠ some (i, .unresolvedLocation side name)
  /-- if only one side is in use, the list of its layout tells how an undisturbed run ends -/
  ending : ∀ layout, r.RunsOn layout → r.script.LoopsValid →
    ((fresh settings).steps before).holder = none →
      ((fresh settings).steps before).controller.pose.homed = true →
        ∀ events : List Event, (∀ e ∈ events, e.pausing = true) → b.WaitsTimely events →
          b.EndsAs events (layout.Foretells r.script r.chosenSide)

/-- A run that searches its plan ends as that says. -/
theorem endsAs_of_searching {plan : Plan} {run : Run} {foretold : Except Failure RunOutcome → Prop}
    (h : Searching plan b {} run) (hs : b.Sound) (loops : plan.script.LoopsValid)
    (expected : foretold plan.outcome) {events : List Event}
    (pausing : ∀ e ∈ events, e.pausing = true) (timely : b.WaitsTimely events) :
    b.EndsAs events foretold := by
  refine ⟨fun result hresult => ?_, fun active => ?_, fun resumed => ?_⟩
  · rcases h.events hs loops pausing timely with ⟨run', h'⟩ | ended
    · exact nomatch h'.underway.ended.symm.trans hresult
    · cases ended.symm.trans hresult
      exact expected
  · rcases h.events hs loops pausing timely with ⟨run', h'⟩ | ended
    · exact exists_advance (hs.steps events) h'.underway.run_eq
    · exact nomatch active.symm.trans ended
  · refine ⟨(b.steps events).movesToEnd, fun later going timely' enough => ⟨_, ?_, expected⟩⟩
    have pausing' : ∀ e ∈ events ++ later, e.pausing = true := by
      intro e he
      rcases List.mem_append.mp he with he | he
      · exact pausing e he
      · exact Event.pausing_of_going (going e he)
    -- so much has been done that nothing more is to come
    have hsome : (b.account (events ++ later)).ended.isSome = true := by
      rw [account_append]
      rcases h.events hs loops pausing timely with ⟨now, hnow⟩ | ended
      · exact ended_of_advances (Going plan) movesToEnd (fun e => e.going = true)
          (fun b e he hb => hb.event loops.fits he) (fun b hb => hb.movesToEnd_pos)
          (hnow.going (hs.steps events) resumed) going enough _
      · rw [ended_foldl_watch (by rw [account, ended]; rfl), account, ended]
        rfl
    rcases h.events hs loops pausing' timely' with ⟨run', h'⟩ | ended
    · rw [account, h'.underway.ended] at hsome
      cases hsome
    · exact ended

/-- **The list of what a layout lacks foretells where runs fail.** -/
theorem unlocated_foretells (accepted : ((fresh settings).steps before).request r = .ok b) :
    Foretold settings before r b := by
  obtain ⟨hs, -, plan, planned, start⟩ := start_of_accepted accepted
  have covers := Plan.covers_of_plan planned
  refine ⟨fun layout script side => layout.ascending_unlocated script side, ?_, ?_⟩
  · intro nothing events genuine i side name hfailed
    have hstart : Explained plan b {} := by
      rw [Bench.start] at start
      split at start <;> cases start
      exact ⟨fun _ => ⟨_, rfl, rfl⟩, by simp⟩
    rcases (hstart.events hs genuine).failed i _ hfailed with
      hf | hf | ⟨step, cursor, now, hstep, taken⟩
    · cases hf
    · cases hf
    · rw [covers.script] at hstep
      rcases Cursor.cause_of_failed taken with fault | ⟨spec, -, hf⟩ | ⟨-, -, hf⟩
      · obtain ⟨layout, hlayout, hlisted⟩ :=
          Plan.unlocated_of_fault covers (List.mem_of_getElem? hstep) fault
        rw [nothing side layout hlayout] at hlisted
        cases hlisted
      · cases hf
      · cases hf
  · intro layout runsOn loops free homed events pausing timely
    have hloops : plan.script.LoopsValid := by
      rw [covers.script]
      exact loops
    obtain ⟨run, h⟩ := Searching.start ((Sound.of_fresh settings).steps before) free homed start
    exact endsAs_of_searching h hs hloops (runsOn.foretells covers) pausing timely

/-- A script that touches a location which the layout lacks. -/
def lackingGoal : RunRequest where
  script := { iterations := some (.count 2), steps := [.mark, .load, .swipe "A" "B" none, .loop] }
  left := some ((Layout.new "").learn .left "A" ⟨10, 20⟩)

/-- Its second step is carried out, and the one behind it begins. -/
def untilLacking : List Event :=
  [.decide, .decide, .proceed, .answer (.ok "ok"), .answer (.ok "ok"), .decide]

theorem unlocated_foretells_lackingGoal :
    ∃ (b : Bench) (layout : Layout), ((fresh {}).steps homing).request lackingGoal = .ok b ∧
      Foretold {} homing lackingGoal b ∧ lackingGoal.RunsOn layout ∧ lackingGoal.script.LoopsValid ∧
      ((fresh {}).steps homing).holder = none ∧
      ((fresh {}).steps homing).controller.pose.homed = true ∧
      (∀ e ∈ untilLacking, e.pausing = true) ∧ b.WaitsTimely untilLacking ∧
      b.EndsAs untilLacking (layout.Foretells lackingGoal.script lackingGoal.chosenSide) ∧
      layout.unlocated lackingGoal.script .left = ["B"] ∧
      (b.account untilLacking).ended = some (.error (.unresolvedLocation .left "B")) := by
  have accepted : ((fresh {}).steps homing).request lackingGoal =
      .ok (((fresh {}).steps homing).step (.request lackingGoal)) := rfl
  have foretold := unlocated_foretells accepted
  have runsOn : lackingGoal.RunsOn ((Layout.new "").learn .left "A" ⟨10, 20⟩) := by
    have unnamed : ∀ step ∈ lackingGoal.script.steps, step.side = none := by decide
    refine ⟨rfl, fun step hstep side hside => ?_, rfl⟩
    rw [unnamed step hstep] at hside
    cases hside
  have loops : lackingGoal.script.LoopsValid := by
    refine ⟨fun l hl => ⟨0, Nat.pos_of_ne_zero ?_, rfl⟩, ?_⟩
    · rintro rfl
      cases hl
    · show 2 + 1 ≤ UInt32.size
      decide
  have pausing : ∀ e ∈ untilLacking, e.pausing = true := by decide
  have timely :
      (((fresh {}).steps homing).step (.request lackingGoal)).WaitsTimely untilLacking := by
    refine ⟨?_, ?_, ?_, ?_, ?_, ?_, trivial⟩
    all_goals
      intro run spec begins
      cases begins
  exact ⟨_, _, accepted, foretold, runsOn, loops, rfl, rfl, pausing, timely,
    foretold.ending _ runsOn loops rfl rfl untilLacking pausing timely, rfl, rfl⟩

end Bench

end Stylus
