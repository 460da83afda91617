import Stylus.Proofs.Motion.Controller

/-!
# Moves and their modes

What a move means depends on what the plotter was told before: to take numbers for positions or for
distances.  Every leg that moves the head says so itself, whatever was said before; and a leg that
names positions is not begun before the plotter is homed.

* `Gcode.lastMode?` — how moves are taken after some commands;
* `Gcode.Guarded` — commands of which none moves the head unless it may;
* `Operation.guarded_legs` — the legs of all operations are guarded.
-/

set_option autoImplicit false

namespace Stylus

/-- How the numbers of moves are taken. -/
inductive MoveMode where
  /-- as positions -/
  | absolute
  /-- as distances -/
  | relative
deriving DecidableEq, Repr

namespace Gcode

/-- The mode that a command sets. -/
def mode? : Gcode → Option MoveMode
  | absolute => some .absolute
  | relative => some .relative
  | _ => none

/-- The mode set last by commands. -/
def lastMode? (lines : List Gcode) : Option MoveMode :=
  lines.reverse.findSome? mode?

theorem lastMode?_append (before after : List Gcode) :
    lastMode? (before ++ after) = (lastMode? after).or (lastMode? before) := by
  rw [lastMode?, List.reverse_append, List.findSome?_append]
  rfl

theorem lastMode?_concat (lines : List Gcode) (line : Gcode) :
    lastMode? (lines ++ [line]) = line.mode?.or (lastMode? lines) := by
  rw [lastMode?_append, lastMode?, List.reverse_singleton]
  cases h : line.mode? <;> simp [h]

/-- A mode set last has been set. -/
theorem exists_of_lastMode? {lines : List Gcode} {mode : MoveMode}
    (h : lastMode? lines = some mode) :
    ∃ line ∈ lines, line.mode? = some mode := by
  obtain ⟨line, hm, hmode⟩ := List.exists_of_findSome?_eq_some h
  exact ⟨line, List.mem_reverse.mp hm, hmode⟩

/-- A move that names an axis of the head. -/
def movesHead : Gcode → Bool
  | move words _ => words.any fun w => w.1 ≠ .e
  | _ => false

/-- None of the commands moves the head unless a mode is set, and none moves it to a position unless
the plotter is homed; `mode` is what was set before. -/
def Guarded (homed : Bool) : Option MoveMode → List Gcode → Prop
  | _, [] => True
  | mode, line :: rest =>
    (line.movesHead = true → mode.isSome = true ∧ (mode = some .absolute → homed = true)) ∧
      Guarded homed (line.mode?.or mode) rest

theorem Guarded.mono {needed homed : Bool} (h : needed = true → homed = true)
    {mode : Option MoveMode} {lines : List Gcode} (hl : Guarded needed mode lines) :
    Guarded homed mode lines := by
  induction lines generalizing mode with
  | nil => exact trivial
  | cons line rest ih =>
    obtain ⟨hline, hrest⟩ := hl
    exact ⟨fun hm => ⟨(hline hm).1, fun ha => h ((hline hm).2 ha)⟩, ih hrest⟩

end Gcode

/-- A leg that says how its moves are taken, and names no position unless the plotter is homed.
Only homing brings the head to the origin. -/
structure Leg.Guarded (leg : Leg) : Prop where
  lines : Gcode.Guarded leg.needsHome none leg.lines
  origin : leg.track = .origin → leg.lines = [.home]

namespace Leg

theorem guarded_home : Guarded ⟨false, .home, [], .origin⟩ :=
  ⟨⟨by rintro ⟨⟩, trivial⟩, fun _ => rfl⟩

/-- A single command that moves nothing by itself. -/
theorem guarded_single {line : Gcode} (h : line.movesHead = false) : (single line).Guarded := by
  refine ⟨⟨fun hm => ?_, trivial⟩, by rintro ⟨⟩⟩
  cases h.symm.trans hm

theorem guarded_homeAxis (axis : Axis) : Guarded ⟨false, .homeAxis axis, [], .set axis 0⟩ :=
  ⟨⟨by rintro ⟨⟩, trivial⟩, by rintro ⟨⟩⟩

/-- The stylus drive may move at any time. -/
theorem guarded_tap (out back : Float) :
    Guarded ⟨false, .relativeStylus, [.move [(.e, out)] none, .move [(.e, back)] none], .keep⟩ :=
  ⟨⟨by rintro ⟨⟩, by rintro ⟨⟩, by rintro ⟨⟩, trivial⟩, by rintro ⟨⟩⟩

theorem guarded_moveTo (settings : MotionSettings) (target : MoveTarget) :
    (moveTo settings target).Guarded := by
  rw [moveTo]
  cases target.e with
  | none => exact ⟨⟨by rintro ⟨⟩, fun _ => ⟨rfl, fun _ => rfl⟩, trivial⟩, by rintro ⟨⟩⟩
  | some travel =>
    exact ⟨⟨by rintro ⟨⟩, by rintro ⟨⟩, fun _ => ⟨rfl, fun _ => rfl⟩, trivial⟩, by rintro ⟨⟩⟩

theorem guarded_moveAbsolute (axis : Axis) (position : Float) :
    (moveAbsolute axis position).Guarded :=
  ⟨⟨by rintro ⟨⟩, fun _ => ⟨rfl, fun _ => rfl⟩, trivial⟩, by rintro ⟨⟩⟩

theorem guarded_moveRelative (axis : Axis) (distance : Float) :
    (moveRelative axis distance).Guarded :=
  ⟨⟨by rintro ⟨⟩, fun _ => ⟨rfl, by rintro ⟨⟩⟩, trivial⟩, by rintro ⟨⟩⟩

end Leg

/-- **Every leg of every operation is guarded.** -/
theorem Operation.guarded_legs (settings : MotionSettings) (pose : Pose) (op : Operation) :
    ∀ leg ∈ op.legs settings pose, leg.Guarded := by
  cases op with
  | home => exact List.forall_mem_singleton.mpr Leg.guarded_home
  | tap =>
    exact List.forall_mem_singleton.mpr (Leg.guarded_tap settings.tapDepth (-settings.tapDepth))
  | off => exact List.forall_mem_singleton.mpr (Leg.guarded_single rfl)
  | finish => exact List.forall_mem_singleton.mpr (Leg.guarded_single rfl)
  | info => exact List.forall_mem_singleton.mpr (Leg.guarded_single rfl)
  | moveTo target => exact List.forall_mem_singleton.mpr (Leg.guarded_moveTo settings target)
  | moveAbsolute axis position =>
    exact List.forall_mem_singleton.mpr (Leg.guarded_moveAbsolute axis position)
  | moveRelative axis distance =>
    exact List.forall_mem_singleton.mpr (Leg.guarded_moveRelative axis distance)
  | swipe start goal =>
    simp only [legs, List.mem_cons, List.not_mem_nil, or_false]
    rintro leg (rfl | rfl | rfl) <;> exact Leg.guarded_moveTo settings _
  | load =>
    by_cases hh : pose.homed = true
    · rw [legs, if_pos hh]
      exact List.forall_mem_singleton.mpr (Leg.guarded_moveAbsolute _ _)
    · rw [legs, if_neg hh]
      simp only [List.mem_cons, List.not_mem_nil, or_false]
      rintro leg (rfl | rfl)
      · exact Leg.guarded_homeAxis settings.loadAxis
      · exact Leg.guarded_moveRelative settings.loadAxis settings.loadPosition

end Stylus
