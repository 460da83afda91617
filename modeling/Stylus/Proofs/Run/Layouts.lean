import Stylus.Proofs.Bench.Failures
import Stylus.Proofs.Run.Moves

/-!
# The layouts that a run needs

A request is accepted when the target devices that its script uses have their layouts.  But a step
may name a side by itself, and nobody looks at the steps before the run is at them: a script for one
device that names the other side is accepted, and fails when it gets there.

* `RunRequest.Lacks` — a step names a side that has no layout;
* `Plan.Covers` — what is known of the layouts of an accepted request;
* `Cursor.take_eq_missing` — the steps that fail for want of a layout;
* `Bench.missing_layout_iff` — **a step of an accepted run fails for want of a layout exactly if it
  names a side that has none**, which a script for two devices cannot do;
* `Bench.missing_layout_of_other_side` — a script for one device can.
-/

set_option autoImplicit false

namespace Stylus

namespace RunRequest

/-- The step at a position names a side that has no layout. -/
def Lacks (r : RunRequest) (i : Nat) (side : Side) : Prop :=
  ∃ step, r.script.steps[i]? = some step ∧ step.side = some side ∧ r.layout? side = none

end RunRequest

/-! ## What is known of an accepted request -/

namespace Plan

/-- A plan is that of the request, and has what acceptance calls for. -/
structure Covers (plan : Plan) (r : RunRequest) : Prop where
  script : plan.script = r.script
  layouts : ∀ side, plan.layout? side = r.layout? side
  /-- the side of steps that name none has a layout -/
  defaultSide : (r.layout? plan.defaultSide).isSome = true
  /-- if both sides are in use, both have a layout -/
  dual : r.script.isDual = true → ∀ side, (r.layout? side).isSome = true
  /-- if one is in use, it is the one that steps without a side are carried out on -/
  single : r.script.isDual = false → plan.defaultSide = r.chosenSide

theorem covers_of_plan {r : RunRequest} {plan : Plan} (h : r.plan = .ok plan) : plan.Covers r := by
  have layouts (side defaultSide : Side) :
      Plan.layout? ⟨r.script, r.left, r.right, defaultSide⟩ side = r.layout? side := by
    cases side <;> rfl
  rw [RunRequest.plan] at h
  dsimp only at h
  split at h
  · rename_i hdual
    split at h
    · cases h
    · rename_i hleft
      split at h
      · cases h
      · rename_i hright
        cases h
        have hboth (side : Side) : (r.layout? side).isSome = true := by
          cases side with
          | left => simpa [RunRequest.layout?, Option.isSome_iff_ne_none] using hleft
          | right => simpa [RunRequest.layout?, Option.isSome_iff_ne_none] using hright
        exact ⟨rfl, fun side => layouts side _, hboth _, fun _ => hboth, by simp [hdual]⟩
  · rename_i hdual
    split at h
    · cases h
    · rename_i hchosen
      cases h
      refine ⟨rfl, fun side => layouts side _, ?_, by simp [hdual], fun _ => rfl⟩
      simpa [Option.isSome_iff_ne_none] using hchosen

/-- Only a script for one device can name a side that has no layout, and that is the other side. -/
theorem Covers.other_side {plan : Plan} {r : RunRequest} (h : plan.Covers r) {i : Nat} {side : Side}
    (lacks : r.Lacks i side) : r.script.isDual = false ∧ side ≠ r.chosenSide := by
  obtain ⟨-, -, -, hnone⟩ := lacks
  have hsingle : r.script.isDual = false := by
    cases hdual : r.script.isDual with
    | false => rfl
    | true =>
      have hsome := h.dual hdual side
      rw [hnone] at hsome
      cases hsome
  refine ⟨hsingle, ?_⟩
  rintro rfl
  have hsome := h.defaultSide
  rw [h.single hsingle, hnone] at hsome
  cases hsome

theorem resolve_eq_missing {plan : Plan} {named : Option Side} {location : String} {side : Side} :
    plan.resolve named location = .error (.missingLayout side) ↔
      named.getD plan.defaultSide = side ∧ plan.layout? side = none := by
  rw [resolve]
  split
  · rename_i hnone
    simp only [Except.error.injEq, Failure.missingLayout.injEq]
    exact ⟨fun h => ⟨h, h ▸ hnone⟩, fun h => h.1⟩
  · rename_i layout hsome
    have hfound : layout.resolve (named.getD plan.defaultSide) location ≠
        .error (.missingLayout side) := by
      rw [Layout.resolve]
      split <;> simp
    refine ⟨fun h => absurd h hfound, ?_⟩
    rintro ⟨rfl, hnone⟩
    rw [hnone] at hsome
    cases hsome

end Plan

/-! ## Steps -/

namespace Cursor

/-- **A step fails for want of a layout exactly if it names a side that has none.** -/
theorem take_eq_missing {plan : Plan} {r : RunRequest} (covers : plan.Covers r) (cursor : Cursor)
    (now : Nat) (step : Step) (side : Side) :
    cursor.take plan now step = .failed (.missingLayout side) ↔
      step.side = some side ∧ r.layout? side = none := by
  -- a location resolves on the default side as far as layouts go
  have hresolve (named : Option Side) (location : String) :
      plan.resolve named location = .error (.missingLayout side) ↔
        named = some side ∧ r.layout? side = none := by
    rw [Plan.resolve_eq_missing, covers.layouts]
    cases named with
    | some s => simp
    | none =>
      have hdefault := covers.defaultSide
      simp only [Option.getD_none, reduceCtorEq, false_and, iff_false, not_and]
      rintro rfl hnone
      rw [hnone] at hdefault
      cases hdefault
  rw [take_iff]
  constructor
  · intro taken
    cases taken with
    | noPlace unresolved => exact (hresolve _ _).1 unresolved
    | noStart unresolved => exact (hresolve _ _).1 unresolved
    | noGoal _ unresolved => exact (hresolve _ _).1 unresolved
  · intro lacks
    cases step with
    | tap location named => exact .noPlace ((hresolve named location).2 lacks)
    | swipe start goal named => exact .noStart ((hresolve named start).2 lacks)
    | _ => cases lacks.1

end Cursor

/-! ## Runs -/

namespace Account

/-- No step has failed, and none that was begun names a side that has no layout. -/
structure Clear (a : Account) (r : RunRequest) : Prop where
  failed : a.failed = none
  begun : ∀ i ∈ a.begun, ∀ side, ¬ r.Lacks i side

/-- A step has failed for want of a layout exactly if one was begun that names a side without
one. -/
def MissesExactly (a : Account) (r : RunRequest) : Prop :=
  ∀ (i : Nat) (side : Side),
    a.failed = some (i, .missingLayout side) ↔ i ∈ a.begun ∧ r.Lacks i side

theorem Clear.misses {a : Account} {r : RunRequest} (h : a.Clear r) : a.MissesExactly r := by
  intro i side
  simp only [h.failed, reduceCtorEq, false_iff, not_and]
  exact fun hi => h.begun i hi side

theorem note_failed {a : Account} (active : a.ended = none) (b : Bench) (e : Bench.Event) :
    (a.note b e).failed =
      match b.stepEnd? e with
      | some (i, some f) => some (i, f)
      | _ => a.failed := by
  rw [note, active]
  rfl

end Account

namespace Bench

/-- A step that is under way fails with a turn of the run. -/
theorem moving?_of_stepEnd? {b : Bench} {e : Event} {i : Nat} {f : Failure}
    (begins : b.begins? e = none) (stepEnd : b.stepEnd? e = some (i, some f)) :
    ∃ turn c, b.moving? e = some (turn, c, .over (.error f)) := by
  rw [stepEnd?, begins] at stepEnd
  dsimp only at stepEnd
  split at stepEnd
  · rename_i run turn c result _ moving
    split at stepEnd
    · cases result with
      | ok text => cases stepEnd
      | error g =>
        cases stepEnd
        exact ⟨turn, c, moving⟩
    · cases stepEnd
  · cases stepEnd

/-- The failure of a turn of the run is the failure of the step. -/
theorem error_of_stepEnd? {b : Bench} {e : Event} {i : Nat} {f : Failure}
    (begins : b.begins? e = none) (stepEnd : b.stepEnd? e = some (i, some f))
    (genuine : e.isGenuine = true) : f = .notHomed ∨ f.isOfLink = true := by
  obtain ⟨turn, c, moving⟩ := moving?_of_stepEnd? begins stepEnd
  exact Turn.error_of_genuine (moving?_eq_some.mp moving).2 genuine

/-- The run is under way and no step has lacked a layout, or it has ended and the account says
which did. -/
def Laid (r : RunRequest) (b : Bench) (a : Account) : Prop :=
  (∃ run : Run, b.run = some run ∧ run.plan.Covers r ∧ a.ended = none ∧ a.Clear r) ∨
    (a.ended.isSome = true ∧ a.MissesExactly r)

variable {r : RunRequest} {b b' : Bench} {a : Account} {run : Run} {e : Event}

/-- An event by which no step begins and none fails, and which leaves the run there. -/
theorem clear_of_quiet (clear : a.Clear r) (active : a.ended = none) (begins : b.begins? e = none)
    (stepEnd : ∀ (i : Nat) (f : Failure), b.stepEnd? e ≠ some (i, some f)) :
    (a.note b e).Clear r := by
  constructor
  · rw [Account.note_failed active]
    split
    · rename_i i f h
      exact absurd h (stepEnd i f)
    · exact clear.failed
  · rw [Account.note_begun active, begins]
    simpa using clear.begun

/-- An event by which a step begins that does not fail. -/
theorem clear_of_begins (clear : a.Clear r) (active : a.ended = none) (covers : run.plan.Covers r)
    {step : Step} (begins : b.begins? .decide = some (run, step))
    (taken : ∀ f, run.cursor.take run.plan b.now step ≠ .failed f) :
    (a.note b .decide).Clear r := by
  constructor
  · rw [Account.note_failed active]
    split
    · rename_i i f h
      simp only [stepEnd?, begins] at h
      split at h
      · cases h
      · cases h
      · rename_i g hg
        exact absurd hg (taken g)
    · exact clear.failed
  · rw [Account.note_begun active, begins]
    intro i hi side hlacks
    rcases List.mem_append.1 hi with hi | hi
    · exact clear.begun i hi side hlacks
    · obtain rfl := List.mem_singleton.1 hi
      obtain ⟨step', hstep', hside, hnone⟩ := hlacks
      rw [← covers.script, (begins?_decide.mp begins).2.2.2] at hstep'
      cases hstep'
      exact taken _ ((Cursor.take_eq_missing covers _ _ _ _).2 ⟨hside, hnone⟩)

/-- An event by which a step begins and fails at once. -/
theorem misses_of_refused (clear : a.Clear r) (active : a.ended = none)
    (covers : run.plan.Covers r) {step : Step} {f : Failure}
    (begins : b.begins? .decide = some (run, step))
    (taken : run.cursor.take run.plan b.now step = .failed f) :
    (a.note b .decide).MissesExactly r := by
  intro i side
  have hstep : r.script.steps[run.cursor.stepIndex]? = some step := by
    rw [← covers.script]
    exact (begins?_decide.mp begins).2.2.2
  have hfailed : (a.note b .decide).failed = some (run.cursor.stepIndex, f) := by
    simp [Account.note_failed active, stepEnd?, begins, taken]
  have hbegun : (a.note b .decide).begun = a.begun ++ [run.cursor.stepIndex] := by
    rw [Account.note_begun active, begins]
    rfl
  rw [hfailed, hbegun]
  constructor
  · intro h
    cases h
    obtain ⟨hside, hnone⟩ := (Cursor.take_eq_missing covers _ _ _ _).1 taken
    exact ⟨List.mem_append_right _ (List.mem_singleton_self _), step, hstep, hside, hnone⟩
  · rintro ⟨hi, hlacks⟩
    rcases List.mem_append.1 hi with hi | hi
    · exact absurd hlacks (clear.begun i hi side)
    · obtain rfl := List.mem_singleton.1 hi
      obtain ⟨step', hstep', hside, hnone⟩ := hlacks
      obtain rfl := Option.some.inj (hstep.symm.trans hstep')
      cases taken.symm.trans ((Cursor.take_eq_missing covers _ b.now _ _).2 ⟨hside, hnone⟩)
      rfl

/-- An event by which the step under way fails at the controller. -/
theorem misses_of_fails (clear : a.Clear r) (active : a.ended = none)
    (begins : b.begins? e = none) {i : Nat} {f : Failure}
    (stepEnd : b.stepEnd? e = some (i, some f)) (genuine : e.isGenuine = true) :
    (a.note b e).MissesExactly r := by
  intro j side
  have hfailed : (a.note b e).failed = some (i, f) := by
    simp [Account.note_failed active, stepEnd]
  have hbegun : (a.note b e).begun = a.begun := by
    simp [Account.note_begun active, begins]
  rw [hfailed, hbegun]
  constructor
  · intro h
    cases h
    rcases error_of_stepEnd? begins stepEnd genuine with hf | hf <;> cases hf
  · rintro ⟨hj, hlacks⟩
    exact absurd hlacks (clear.begun j hj side)

theorem Laid.event (h : Laid r b a) (hs : b.Sound) (genuine : e.isGenuine = true) :
    Laid r (b.step e) (a.note b e) := by
  rcases h with ⟨run, hr, covers, active, clear⟩ | ⟨ended, misses⟩
  · have hm := runMove hs hr e
    generalize hstep : b.step e = b' at hm ⊢
    -- the run is still there and has its plan, or the event has ended it
    have goesOn {run' : Run} (run_eq : b'.run = some run') (plan : run'.plan = run.plan)
        (clear' : (a.note b e).Clear r) : Laid r b' (a.note b e) :=
      .inl ⟨run', run_eq, plan ▸ covers, Account.ended_of_run active hstep run_eq, clear'⟩
    have ends {bench : Bench} {result : Except Failure RunOutcome} (hend : b' = bench.endRun result)
        (misses : (a.note b e).MissesExactly r) : Laid r b' (a.note b e) := by
      have hended := Account.ended_of_endRun active hr (hstep.trans hend)
      exact .inr ⟨by rw [hended]; rfl, misses⟩
    cases hm with
    | stays run_eq runner resting undecided begins stepEnd =>
      exact goesOn run_eq rfl (clear_of_quiet clear active begins (by simp [stepEnd]))
    | wakes resting run_eq runner begins stepEnd =>
      exact goesOn run_eq rfl (clear_of_quiet clear active begins (by simp [stepEnd]))
    | rests boundary stop pause =>
      have begins := begins?_of_wish (b := b) (by simp [pause])
      have stepEnd := stepEnd?_of_not_holders rfl begins
      exact goesOn rfl rfl (clear_of_quiet clear active begins (by simp [stepEnd]))
    | begins begins taken =>
      exact goesOn (queue_run _ _ _) rfl
        (clear_of_begins clear active covers begins (by simp [taken]))
    | does begins taken =>
      exact goesOn rfl rfl (clear_of_begins clear active covers begins (by simp [taken]))
    | refused begins taken =>
      exact ends rfl (misses_of_refused clear active covers begins taken)
    | passes working runner begins stepEnd =>
      exact goesOn rfl rfl (clear_of_quiet clear active begins (by simp [stepEnd]))
    | fails working runner begins stepEnd =>
      exact ends rfl (misses_of_fails clear active begins stepEnd genuine)
    | stopped boundary stop =>
      have begins := begins?_of_wish (b := b) (by simp [stop])
      have stepEnd := stepEnd?_of_not_holders rfl begins
      exact ends rfl (clear_of_quiet clear active begins (by simp [stepEnd])).misses
    | completed boundary calm behind =>
      have begins : b.begins? .decide = none := by simp [begins?, hr, behind]
      have stepEnd := stepEnd?_of_not_holders rfl begins
      exact ends rfl (clear_of_quiet clear active begins (by simp [stepEnd])).misses
  · rw [Account.note_of_ended ended]
    exact .inr ⟨ended, misses⟩

theorem Laid.misses (h : Laid r b a) : a.MissesExactly r := by
  rcases h with ⟨run, -, -, -, clear⟩ | ⟨-, misses⟩
  · exact clear.misses
  · exact misses

/-- The account of a run says exactly which layout it lacked. -/
theorem Laid.events (h : Laid r b a) (hs : b.Sound) {events : List Event}
    (genuine : ∀ e ∈ events, e.isGenuine = true) :
    (events.foldl watch (b, a)).2.MissesExactly r := by
  induction events generalizing b a with
  | nil => exact h.misses
  | cons e events ih =>
    have hevent := h.event hs (genuine e List.mem_cons_self)
    exact ih hevent (hs.step_event e) fun e' he' => genuine e' (List.mem_cons_of_mem _ he')

/-- **The layouts that an accepted run lacks.**  Whatever has happened before the request and
whatever happens after it, a step fails for want of a layout exactly if it was begun and names a
side that has none; this takes a script for one device that names the other side. -/
theorem missing_layout_iff {settings : MotionSettings} {before : List Event} {r : RunRequest}
    {b : Bench} (accepted : ((fresh settings).steps before).request r = .ok b)
    {events : List Event} (genuine : ∀ e ∈ events, e.isGenuine = true) (i : Nat) (side : Side) :
    ((b.account events).failed = some (i, .missingLayout side) ↔
        i ∈ (b.account events).begun ∧ r.Lacks i side) ∧
      (r.Lacks i side → r.script.isDual = false ∧ side ≠ r.chosenSide) := by
  have hs := (Sound.of_fresh settings).steps before
  cases hp : r.plan with
  | error f =>
    rw [request_of_fault hp] at accepted
    cases accepted
  | ok plan =>
    have covers := Plan.covers_of_plan hp
    have hs' := hs.request accepted
    rw [request_of_plan hp, start] at accepted
    split at accepted
    · cases accepted
    · cases accepted
      exact ⟨Laid.events (.inl ⟨_, rfl, covers, rfl, rfl, by simp⟩) hs' genuine i side,
        covers.other_side⟩

/-- A script for one device that names the other side, behind a step that needs no layout. -/
def otherSide : RunRequest where
  script := { steps := [.load, .tap "A" (some .right)] }
  left := some ((Layout.new "").learn .left "A" ⟨10, 20⟩)

/-- The first of its steps is carried out, and the second begins. -/
def untilOtherSide : List Event :=
  [.decide, .proceed, .answer (.ok "")] ++ List.replicate 3 (.answer (.ok "ok")) ++ [.decide]

theorem missing_layout_iff_otherSide :
    ∃ b : Bench, ((fresh {}).steps []).request otherSide = .ok b ∧
      (∀ e ∈ untilOtherSide, e.isGenuine = true) ∧
      (((b.account untilOtherSide).failed = some (1, .missingLayout .right) ↔
          1 ∈ (b.account untilOtherSide).begun ∧ otherSide.Lacks 1 .right) ∧
        (otherSide.Lacks 1 .right → otherSide.script.isDual = false ∧
          .right ≠ otherSide.chosenSide)) ∧
      otherSide.Lacks 1 .right ∧ (b.account untilOtherSide).begun = [0, 1] := by
  have genuine : ∀ e ∈ untilOtherSide, e.isGenuine = true := by decide
  exact ⟨_, rfl, genuine, @missing_layout_iff {} [] otherSide _ rfl _ genuine 1 .right,
    ⟨_, rfl, rfl, rfl⟩, rfl⟩

/-- **A run that is accepted and has not the layouts it needs.** -/
theorem missing_layout_of_other_side :
    ∃ b : Bench, (fresh {}).request
        { script := { steps := [.tap "A" (some .right)] }, left := some (.new "") } = .ok b ∧
      (b.account [.decide]).failed = some (0, .missingLayout .right) ∧
      (b.account [.decide]).ended = some (.error (.missingLayout .right)) :=
  ⟨_, rfl, rfl, rfl⟩

end Bench

end Stylus
