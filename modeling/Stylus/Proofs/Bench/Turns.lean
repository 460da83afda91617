import Stylus.Proofs.Bench.Going

/-!
# What a turn has still to send

A turn goes through its stages, a stage through the legs of its operation, and a leg through its
commands.  Laid end to end these are one list of commands, and every event that moves the turn takes
off its front just what is put on record.

* `Turn.remaining` — the commands that a turn has still to send, with the one it waits for;
* `Stage.Steady` — a stage whose commands do not depend on where the head is;
* `TurnState.Leaves` — what is left of a list of commands when some have been answered;
* `Turn.moved?_leaves` — every event that moves a turn takes off what is answered by it.

Only loading depends on where the head is, since an unhomed plotter homes the axis first, and so
does homing on demand.  No step with a contact does either.
-/

set_option autoImplicit false

namespace Stylus

namespace Stage

/-- The commands of a stage, on a plotter that is homed. -/
def lines (settings : MotionSettings) : Stage → List Gcode
  | .operate op => Leg.allLines (op.legs settings .origin)
  | .homeUnlessHomed | .awaitReady _ => []

/-- The commands of stages. -/
def allLines (settings : MotionSettings) (stages : List Stage) : List Gcode :=
  stages.flatMap (lines settings)

/-- The commands of a stage are the same wherever the head is. -/
def Steady (settings : MotionSettings) : Stage → Prop
  | .operate op => ∀ pose : Pose, op.legs settings pose = op.legs settings .origin
  | .homeUnlessHomed => False
  | .awaitReady _ => True

/-- All stages are steady. -/
def AllSteady (settings : MotionSettings) (stages : List Stage) : Prop :=
  ∀ stage ∈ stages, stage.Steady settings

theorem AllSteady.head {settings : MotionSettings} {stage : Stage} {stages : List Stage}
    (h : AllSteady settings (stage :: stages)) : stage.Steady settings :=
  h stage List.mem_cons_self

theorem AllSteady.tail {settings : MotionSettings} {stage : Stage} {stages : List Stage}
    (h : AllSteady settings (stage :: stages)) : AllSteady settings stages :=
  fun s hs => h s (List.mem_cons_of_mem _ hs)

end Stage

/-- The commands that what a turn is doing has still to send. -/
def Activity.lines : Activity → List Gcode
  | .asking work => work.lines
  | .ready | .sleeping _ => []

/-- The commands that a turn has still to send. -/
def Turn.remaining (settings : MotionSettings) (turn : Turn) : List Gcode :=
  turn.activity.lines ++ Stage.allLines settings turn.stages

/-- All of the commands were accepted. -/
def AllAccepted (sent : List (Gcode × Bool)) : Prop :=
  ∀ s ∈ sent, s.2 = true

/-- What is left of the commands `lines` of a turn when `sent` has been answered. -/
def TurnState.Leaves (settings : MotionSettings) (lines : List Gcode) (sent : List (Gcode × Bool)) :
    TurnState → Prop
  | .busy activity stages =>
    AllAccepted sent ∧ Stage.AllSteady settings stages ∧
      sent.map Prod.fst ++ (activity.lines ++ Stage.allLines settings stages) = lines
  | .over (.ok _) => AllAccepted sent ∧ sent.map Prod.fst = lines
  | .over (.error _) => sent.length ≤ 1 ∧ sent.map Prod.fst <+: lines

namespace TurnState

variable {settings : MotionSettings} {s : TurnState} {lines : List Gcode}

/-- A command accepted before the turn came to this state. -/
theorem Leaves.accepted (h : s.Leaves settings lines []) (line : Gcode) :
    s.Leaves settings (line :: lines) [(line, true)] := by
  have hacc : AllAccepted [(line, true)] := by simp [AllAccepted]
  match s, h with
  | .busy activity stages, h =>
    obtain ⟨-, hsteady, hlines⟩ := h
    exact ⟨hacc, hsteady, congrArg (line :: ·) hlines⟩
  | .over (.ok _), h => exact ⟨hacc, congrArg (line :: ·) h.2⟩
  | .over (.error _), _ => exact ⟨Nat.le_refl 1, lines, rfl⟩

end TurnState

/-! ## Events -/

namespace Turn

variable {settings : MotionSettings} {turn : Turn} {c c' : Controller} {now : Nat} {e : Bench.Event}
  {s : TurnState}

/-- While a turn asks, the commands of its work are the first that it has still to send. -/
theorem remaining_of_asking (settings : MotionSettings) {work : Work}
    (h : turn.activity = .asking work) :
    turn.remaining settings = work.lines ++ Stage.allLines settings turn.stages := by
  rw [remaining, h, Activity.lines]

/-- A turn that is due has still to send the commands of its stages. -/
theorem Due.remaining (settings : MotionSettings) (h : turn.Due now e) :
    turn.remaining settings = Stage.allLines settings turn.stages := by
  rw [Turn.remaining]
  cases h with
  | begins idle | wakes idle =>
    rw [idle]
    rfl

theorem GoesOn.leaves {text : String} {legs : List Leg} {stages : List Stage}
    (h : GoesOn c now text legs stages s) (hc : c.settings = settings)
    (steady : Stage.AllSteady settings stages) :
    s.Leaves settings (Leg.allLines legs ++ Stage.allLines settings stages) [] := by
  have hnone : AllAccepted [] := by simp [AllAccepted]
  induction h with
  | done => exact ⟨hnone, rfl⟩
  | asks => exact ⟨hnone, steady, rfl⟩
  | refused => exact ⟨Nat.zero_le 1, List.nil_prefix⟩
  | @operate _ op _ _ _ ih =>
    have hlegs : op.legs c.settings c.pose = op.legs settings .origin := by
      rw [hc]
      exact steady.head c.pose
    rw [hlegs] at ih
    exact ih steady.tail
  | homed | homes => exact steady.head.elim
  | awake _ _ ih => exact ih steady.tail
  | sleeps => exact ⟨hnone, steady.tail, rfl⟩

/-- **Every event that moves a turn takes off the front of what it has still to send just what is
answered by it.** -/
theorem moved?_leaves (hc : c.settings = settings) (steady : Stage.AllSteady settings turn.stages)
    (h : turn.moved? c now e = some (c', s)) :
    s.Leaves settings (turn.remaining settings) (turn.answers e) := by
  have moved := moved_of_moved? h
  generalize turn.answers e = sent at moved ⊢
  cases moved with
  | due due goes =>
    rw [due.remaining]
    exact goes.leaves hc steady
  | linked asking =>
    rw [remaining_of_asking settings asking]
    exact ⟨by simp [AllAccepted], steady, rfl⟩
  | unlinked => exact ⟨Nat.zero_le 1, List.nil_prefix⟩
  | @failed work asking =>
    rw [remaining_of_asking settings asking]
    exact ⟨Nat.le_refl 1, List.prefix_append [work.line] _⟩
  | onward asking _ more =>
    rw [remaining_of_asking settings asking, Work.lines, more]
    exact ⟨by simp [AllAccepted], steady, rfl⟩
  | @legDone work asking _ last _ _ goes =>
    have hc' : (c.track work.track).settings = settings := (c.track_settings _).trans hc
    rw [remaining_of_asking settings asking, Work.lines, last]
    exact (goes.leaves hc' steady).accepted work.line

end Turn

/-! ## The settings -/

namespace Bench

theorem move_settings {b b' : Bench} {e : Event} (h : Move b e b') :
    b'.controller.settings = b.controller.settings := by
  cases h with
  | busy moving => exact Turn.moved?_settings (moving?_eq_some.mp moving).2
  | finish moving =>
    rw [turnOver_controller]
    exact Turn.moved?_settings (moving?_eq_some.mp moving).2
  | wish => exact congrArg Controller.settings (wakeRun_controller _)
  | poll => rw [wakeRun_controller]
  | queue => rw [queue_controller]
  | takeTurn => rw [queue_controller]
  | _ => rfl

/-- No event changes the settings. -/
theorem steps_settings (b : Bench) (events : List Event) :
    (b.steps events).controller.settings = b.controller.settings :=
  steps_induction (P := fun b' => b'.controller.settings = b.controller.settings)
    (fun b' e h => (move_settings (b'.move e)).trans h) rfl events

end Bench

end Stylus
