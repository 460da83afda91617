import Stylus.Proofs.Bench.Homed
import Stylus.Proofs.Bench.Traffic
import Stylus.Proofs.Run.Layouts
import Stylus.Proofs.Run.Lifecycle

/-!
# Runs on a plotter that is homed

Homing is never taken back: no operation, no bad answer and no lost link makes a homed plotter one
that is not.  So a run that is begun on a homed plotter has it homed until it ends, and cannot fail
for want of that.

* `Bench.homed_step` — a plotter that is homed stays so;
* `Bench.Homing` — the invariant: a plotter is held to be homed only after `G28` was acknowledged;
* `Bench.ending?_ne_notHomed` — how a run on a homed plotter does not end.
-/

set_option autoImplicit false

namespace Stylus

/-! ## Turns and steps -/

namespace Turn

variable {turn : Turn} {c c' : Controller} {now : Nat} {e : Bench.Event}
  {sent : List (Gcode × Bool)} {s : TurnState}

theorem Moved.homed (moved : turn.Moved c now e sent c' s) (homed : c.pose.homed = true) :
    c'.pose.homed = true := by
  cases moved with
  | @legDone work => exact (Controller.Homed.track ⟨rfl, homed⟩ work.track).homed
  | _ => exact homed

/-- A plotter becomes homed by the acknowledgment of the last command of a leg that homes it. -/
theorem Moved.homed_before (moved : turn.Moved c now e sent c' s) (homed : c'.pose.homed = true) :
    c.pose.homed = true ∨ ∃ work : Work, turn.activity = .asking work ∧ work.track = .origin ∧
      sent = [(work.line, true)] := by
  cases moved with
  | @legDone work asking =>
    rw [Controller.track_pose] at homed
    exact (Pose.homed_after.mp homed).imp_right fun origin => ⟨work, asking, origin, rfl⟩
  | _ => exact .inl homed

/-- On a plotter that is homed, no turn fails for want of that. -/
theorem ne_notHomed_of_moved? {f : Failure} (homed : c.pose.homed = true)
    (genuine : e.isGenuine = true) (h : turn.moved? c now e = some (c', .over (.error f))) :
    f ≠ .notHomed := by
  have never {c : Controller} {text : String} {legs : List Leg} (homed : c.pose.homed = true)
      (goes : GoesOn c now text legs turn.stages (.over (.error f))) : False :=
    goes.goes ⟨rfl, homed⟩
  have moved := moved_of_moved? h
  generalize turn.answers e = sent at moved
  have homed' := moved.homed homed
  cases moved with
  | due _ goes => exact (never homed goes).elim
  | unlinked | failed =>
    rintro rfl
    cases genuine
  | legDone _ _ _ goes => exact (never homed' goes).elim

end Turn

/-- No step fails for want of homing before it has the controller. -/
theorem Cursor.take_ne_notHomed (cursor : Cursor) (plan : Plan) (now : Nat) (step : Step) :
    cursor.take plan now step ≠ .failed .notHomed := by
  have hresolve (side : Option Side) (location : String) :
      plan.resolve side location ≠ .error .notHomed := by
    rw [Plan.resolve]
    split
    · simp
    · rw [Layout.resolve]
      split <;> simp
  intro taken
  cases take_iff.mp taken with
  | noPlace unresolved => exact hresolve _ _ unresolved
  | noStart unresolved => exact hresolve _ _ unresolved
  | noGoal _ unresolved => exact hresolve _ _ unresolved

namespace Bench

variable {b : Bench} {e : Event}

/-! ## Homing is never taken back -/

/-- **A plotter that is homed stays so**, whatever happens. -/
theorem homed_step (hs : b.Sound) (homed : b.controller.pose.homed = true) (e : Event) :
    (b.step e).controller.pose.homed = true := by
  rcases step_work hs e with ⟨-, controller, -⟩ | ⟨turn, c, s, moving, controller, -⟩ <;>
    rw [controller]
  · exact homed
  · exact (Turn.moved_of_moved? (moving?_eq_some.mp moving).2).homed homed

/-- Homing is on record as acknowledged. -/
def HomingLogged (log : List Entry) : Prop :=
  ∃ entry ∈ log, entry.line = .home ∧ entry.accepted = true

/-- **A plotter is held to be homed only after homing was acknowledged.** -/
structure Homing (b : Bench) : Prop where
  /-- only homing brings the head to the origin -/
  steered : ∃ t, Steered (b, t)
  logged : b.controller.pose.homed = true → HomingLogged b.log

namespace Homing

theorem of_fresh (settings : MotionSettings) : Homing (fresh settings) :=
  ⟨⟨{}, .of_fresh settings⟩, nofun⟩

/-- The operation under way homes the plotter by no other command than homing. -/
theorem line_of_origin (h : Homing b) {work : Work} (hw : b.work? = some work)
    (origin : work.track = .origin) : work.line = .home := by
  obtain ⟨t, steered⟩ := h.steered
  rw [Steered, hw] at steered
  have hwork : work.Steered b.controller.pose.homed t.current := steered.work
  exact (hwork.origin origin).1

theorem step (h : Homing b) (hs : b.Sound) (e : Event) : Homing (b.step e) := by
  obtain ⟨t, steered⟩ := h.steered
  have hlog := move_log (b.move e)
  have kept (homed : b.controller.pose.homed = true) : HomingLogged (b.step e).log := by
    rw [hlog]
    exact (h.logged homed).imp fun entry hm => ⟨List.mem_append_right _ hm.1, hm.2⟩
  refine ⟨⟨_, steered.step hs {} (e, 0)⟩, fun homed => ?_⟩
  rcases step_work hs e with ⟨-, controller, -⟩ | ⟨turn, c, s, moving, controller, -⟩ <;>
    rw [controller] at homed
  · exact kept homed
  · obtain ⟨hb, moved⟩ := moving?_eq_some.mp moving
    rcases (Turn.moved_of_moved? moved).homed_before homed with
      homed | ⟨work, asking, origin, answered⟩
    · exact kept homed
    · have hw : b.work? = some work := by
        rw [work?_of_holder hb, asking]
        rfl
      have hentries : b.entries e = [⟨b.now, turn.owner, .home, true⟩] := by
        rw [entries_of_holder hb, answered, h.line_of_origin hw origin]
        rfl
      rw [hlog, hentries]
      exact ⟨_, List.mem_cons_self, rfl, rfl⟩

end Homing

/-! ## Runs -/

/-- **A run on a homed plotter does not end for want of homing.** -/
theorem ending?_ne_notHomed (hs : b.Sound) (homed : b.controller.pose.homed = true)
    (genuine : e.isGenuine = true) : b.ending? e ≠ some (.error .notHomed) := by
  cases hr : b.run with
  | none => simp [ending?_of_idle hr]
  | some run =>
    have hm := runMove hs hr e
    generalize hstep : b.step e = b' at hm
    cases hm with
    | stays run_eq => simp [ending?_eq_none hstep run_eq]
    | wakes _ run_eq => simp [ending?_eq_none hstep run_eq]
    | rests => rw [ending?_eq_none hstep rfl]; simp
    | begins => rw [ending?_eq_none hstep (queue_run _ _ _)]; simp
    | does => rw [ending?_eq_none hstep rfl]; simp
    | passes => rw [ending?_eq_none hstep rfl]; simp
    | stopped => simp [ending?_endRun hr hstep]
    | completed => simp [ending?_endRun hr hstep]
    | refused _ taken =>
      rw [ending?_endRun hr hstep]
      rintro ⟨⟩
      exact run.cursor.take_ne_notHomed _ _ _ taken
    | fails _ _ begins stepEnd =>
      obtain ⟨turn, c, moving⟩ := moving?_of_stepEnd? begins stepEnd
      rw [ending?_endRun hr hstep]
      rintro ⟨⟩
      exact Turn.ne_notHomed_of_moved? homed genuine (moving?_eq_some.mp moving).2 rfl

theorem ending?_of_happening {result : Except Failure RunOutcome}
    (h : b.happening? e = some (.ended result)) : b.ending? e = some result := by
  cases e with
  | request r =>
    rw [happening?] at h
    split at h <;> cases h
  | _ =>
    obtain ⟨ending, hending, ⟨⟩⟩ := Option.map_eq_some_iff.mp h
    exact hending

/-- What is told of the last run's end is not that the plotter was not homed. -/
theorem lastError_step (hs : b.Sound) (homed : b.controller.pose.homed = true)
    (genuine : e.isGenuine = true) (h : b.runner.progress.lastError ≠ some .notHomed) :
    (b.step e).runner.progress.lastError ≠ some .notHomed := by
  have hm := lifeMove hs e
  generalize hhappening : b.happening? e = happening at hm
  cases hm with
  | goesOn _ _ lastError => rwa [lastError]
  | starts _ _ _ lastError => simp [lastError]
  | @ends result _ _ _ lastError =>
    rw [lastError]
    intro hresult
    have hending : b.ending? e = some result := ending?_of_happening hhappening
    cases result with
    | ok outcome => cases hresult
    | error f =>
      cases hresult
      exact ending?_ne_notHomed hs homed genuine hending

end Bench

end Stylus
