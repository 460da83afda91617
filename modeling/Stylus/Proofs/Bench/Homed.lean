import Stylus.Proofs.Bench.Turns

/-!
# Turns at a plotter that is homed

Once the plotter is homed nothing un-homes it, and no stage depends on where the head is.  If in
addition everything is acknowledged, no turn fails: each sends all of its commands and is over.

* `Controller.Homed` — the plotter is homed, and the settings are these;
* `TurnState.Goes` — what is left of a list of commands when some have been acknowledged;
* `Turn.moved?_goes` — every event takes a turn further along its commands.
-/

set_option autoImplicit false

namespace Stylus

/-! ## The controller -/

/-- The plotter is homed, and the settings are these. -/
structure Controller.Homed (settings : MotionSettings) (c : Controller) : Prop where
  settings_eq : c.settings = settings
  homed : c.pose.homed = true

/-- What is good news from the plotter. -/
def Bench.Event.good : Bench.Event → Bool
  | .answer a => Bench.isOk a
  | _ => true

/-- On a plotter that is homed, an operation does not depend on where the head is. -/
theorem Operation.legs_of_homed {pose : Pose} (h : pose.homed = true) (settings : MotionSettings)
    (op : Operation) : op.legs settings pose = op.legs settings .origin := by
  cases op with
  | load => simp only [legs, h, Pose.origin]
  | _ => rfl

namespace Controller

variable {settings : MotionSettings} {c : Controller}

theorem Homed.track (h : c.Homed settings) (t : Track) : (c.track t).Homed settings := by
  refine ⟨(c.track_settings t).trans h.settings_eq, ?_⟩
  cases t with
  | keep => exact h.homed
  | _ => exact Pose.homed_after.mpr (.inl h.homed)

end Controller

/-! ## Turns -/

/-- What is left of the commands `lines` of a turn when `sent` has been acknowledged; the turn does
not fail. -/
def TurnState.Goes (settings : MotionSettings) (lines : List Gcode) (sent : List (Gcode × Bool)) :
    TurnState → Prop
  | .busy activity stages =>
    AllAccepted sent ∧
      sent.map Prod.fst ++ (activity.lines ++ Stage.allLines settings stages) = lines
  | .over (.ok _) => AllAccepted sent ∧ sent.map Prod.fst = lines
  | .over (.error _) => False

namespace TurnState

/-- A command acknowledged before the turn came to this state. -/
theorem Goes.accepted {settings : MotionSettings} {s : TurnState} {lines : List Gcode}
    (h : s.Goes settings lines []) (line : Gcode) :
    s.Goes settings (line :: lines) [(line, true)] := by
  have hacc : AllAccepted [(line, true)] := by simp [AllAccepted]
  rcases s with ⟨activity, stages⟩ | (f | text)
  · exact ⟨hacc, congrArg (line :: ·) h.2⟩
  · exact False.elim h
  · exact ⟨hacc, congrArg (line :: ·) h.2⟩

end TurnState

namespace Turn

variable {settings : MotionSettings} {c c' : Controller} {now : Nat} {turn : Turn} {e : Bench.Event}
  {s : TurnState}

theorem GoesOn.goes {text : String} {legs : List Leg} {stages : List Stage}
    (h : GoesOn c now text legs stages s) (ready : c.Homed settings) :
    s.Goes settings (Leg.allLines legs ++ Stage.allLines settings stages) [] := by
  have hnone : AllAccepted [] := by simp [AllAccepted]
  induction h with
  | done => exact ⟨hnone, rfl⟩
  | asks => exact ⟨hnone, rfl⟩
  | refused _ unhomed => cases ready.homed.symm.trans unhomed
  | @operate _ op _ _ _ ih =>
    rw [op.legs_of_homed ready.homed, ready.settings_eq] at ih
    exact ih
  | homed _ _ ih => exact ih
  | homes unhomed => cases ready.homed.symm.trans unhomed
  | awake _ _ ih => exact ih
  | sleeps => exact ⟨hnone, rfl⟩

/-- **On a plotter that is homed and acknowledges everything, every event that moves a turn takes it
further along its commands.** -/
theorem moved?_goes (h : c.Homed settings) (good : e.good = true)
    (moved : turn.moved? c now e = some (c', s)) :
    c'.Homed settings ∧ s.Goes settings (turn.remaining settings) (turn.answers e) := by
  have moved := moved_of_moved? moved
  generalize turn.answers e = sent at moved ⊢
  cases moved with
  | due due goes =>
    rw [due.remaining]
    exact ⟨h, goes.goes h⟩
  | linked asking =>
    rw [remaining_of_asking settings asking]
    exact ⟨⟨h.settings_eq, h.homed⟩, by simp [AllAccepted], rfl⟩
  | unlinked | failed => cases good
  | onward asking _ more =>
    rw [remaining_of_asking settings asking, Work.lines, more]
    exact ⟨h, by simp [AllAccepted], rfl⟩
  | @legDone work asking _ last _ _ goes =>
    rw [remaining_of_asking settings asking, Work.lines, last]
    exact ⟨h.track _, (goes.goes (h.track _)).accepted work.line⟩

end Turn

end Stylus
