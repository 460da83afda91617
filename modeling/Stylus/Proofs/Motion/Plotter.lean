import Stylus.Proofs.Motion.Controller
import Stylus.Proofs.Number.Zero

/-!
# A plotter to compare with

`Plotter` is what the commands mean for the place of the head: a position and a mode.  `Follows`
says that the controller's pose agrees with it, once the plotter is homed, but for the signs of
zeros.

* `Plotter.execute` — what a command does;
* `Gcode.Still` — a command that leaves the head where it is;
* `Tracked` — after the commands of a leg the plotter is where the controller then thinks;
* `Late` — the head moves only at the last command of a leg;
* `Operation.faithful_legs` — every leg of every operation is both.

The mode that an operation leaves behind is of no account: every leg that moves the head first says
whether it names positions or distances.
-/

set_option autoImplicit false

namespace Stylus

open Number

/-- Where the head of a plotter is, and how it takes moves. -/
structure Plotter where
  x : Float
  y : Float
  z : Float
  /-- moves name distances -/
  relative : Bool

namespace Plotter

/-- The number that a word reads back as: a zero is printed without a sign. -/
def readBack (value : Float) : Float :=
  if value == 0 then 0 else value

/-- The plotter with one axis at a position; the stylus drive has none. -/
def set (p : Plotter) (axis : Axis) (position : Float) : Plotter :=
  match axis with
  | .x => { p with x := position }
  | .y => { p with y := position }
  | .z => { p with z := position }
  | .e => p

/-- The position of an axis. -/
def get? (p : Plotter) : Axis → Option Float
  | .x => some p.x
  | .y => some p.y
  | .z => some p.z
  | .e => none

/-- What a word of a move does. -/
def moveWord (p : Plotter) (w : Axis × Float) : Plotter :=
  match p.get? w.1 with
  | some position => p.set w.1 (if p.relative then position + readBack w.2 else readBack w.2)
  | none => p

/-- What a command does to the position and the mode. -/
def execute (p : Plotter) : Gcode → Plotter
  | .home => { p with x := 0, y := 0, z := 0 }
  | .homeAxis axis => p.set axis 0
  | .absolute => { p with relative := false }
  | .relative => { p with relative := true }
  | .move words _ => words.foldl moveWord p
  | _ => p

/-- What commands do, one after the other. -/
def run (p : Plotter) (lines : List Gcode) : Plotter :=
  lines.foldl execute p

end Plotter

/-! ## Agreement -/

/-- The pose, if it is known, is where the plotter is. -/
def Follows (pose : Pose) (p : Plotter) : Prop :=
  pose.homed = true → Alike pose.x p.x ∧ Alike pose.y p.y ∧ Alike pose.z p.z

theorem Follows.mode {pose : Pose} {p : Plotter} (h : Follows pose p) (relative : Bool) :
    Follows pose { p with relative } :=
  h

theorem alike_readBack (value : Float) : Alike value (Plotter.readBack value) := by
  rw [Plotter.readBack]
  split
  · rename_i h
    exact .inr ⟨h, beq_zero_iff.mpr ⟨_, unpack_zero⟩⟩
  · exact .refl value

/-- Both the pose and the plotter have an axis set to like numbers. -/
theorem Follows.set {pose : Pose} {p : Plotter} (h : Follows pose p) (axis : Axis) {a b : Float}
    (hab : pose.homed = true → Alike a b) : Follows (pose.set axis a) (p.set axis b) := by
  cases axis with
  | e => exact h
  | _ =>
    intro hh
    have hpos := h hh
    have hab := hab hh
    simp_all [Pose.set, Plotter.set]

/-- A word of a move to a position. -/
theorem Follows.moveTo {pose : Pose} {p : Plotter} (h : Follows pose p) (hm : p.relative = false)
    (axis : Axis) (position : Float) :
    Follows (pose.set axis position) (p.moveWord (axis, position)) := by
  cases axis with
  | e => exact h
  | _ =>
    simp only [Plotter.moveWord, Plotter.get?, hm]
    exact h.set _ fun _ => alike_readBack position

/-- A word of a move by a distance. -/
theorem Follows.moveBy {pose : Pose} {p : Plotter} (h : Follows pose p) (hm : p.relative = true)
    (axis : Axis) (distance : Float) :
    Follows (pose.after (.shift axis distance)) (p.moveWord (axis, distance)) := by
  cases axis with
  | e => exact h
  | x =>
    simp only [Plotter.moveWord, Plotter.get?, hm, Pose.after, Pose.get?]
    exact h.set .x fun hh => (h hh).1.add (alike_readBack distance)
  | y =>
    simp only [Plotter.moveWord, Plotter.get?, hm, Pose.after, Pose.get?]
    exact h.set .y fun hh => (h hh).2.1.add (alike_readBack distance)
  | z =>
    simp only [Plotter.moveWord, Plotter.get?, hm, Pose.after, Pose.get?]
    exact h.set .z fun hh => (h hh).2.2.add (alike_readBack distance)

theorem Plotter.moveWord_relative (p : Plotter) (w : Axis × Float) :
    (p.moveWord w).relative = p.relative := by
  obtain ⟨axis, value⟩ := w
  cases axis <;> rfl

/-- The words of a move to a target. -/
theorem Follows.moveWords {pose : Pose} {p : Plotter} (h : Follows pose p)
    (hm : p.relative = false) (words : List (Axis × Float)) :
    Follows (words.foldl (fun pose w => pose.set w.1 w.2) pose)
      (words.foldl Plotter.moveWord p) := by
  induction words generalizing pose p with
  | nil => exact h
  | cons w words ih =>
    exact ih (h.moveTo hm w.1 w.2) ((p.moveWord_relative w).trans hm)

theorem Pose.place_eq (pose : Pose) (target : MoveTarget) :
    pose.place target = target.words.foldl (fun pose w => pose.set w.1 w.2) pose := by
  obtain ⟨x, y, z, e⟩ := target
  cases x <;> cases y <;> cases z <;> cases e <;> rfl

/-! ## Legs -/

/-- A command that leaves the head where it is. -/
def Gcode.Still (line : Gcode) : Prop :=
  ∀ p : Plotter, (p.execute line).x = p.x ∧ (p.execute line).y = p.y ∧ (p.execute line).z = p.z

theorem Gcode.still_stylus (travel : Float) (feed : Option Float) :
    (Gcode.move [(.e, travel)] feed).Still :=
  fun _ => ⟨rfl, rfl, rfl⟩

theorem Follows.still {pose : Pose} {p : Plotter} (h : Follows pose p) {line : Gcode}
    (hl : line.Still) : Follows pose (p.execute line) := by
  intro hh
  obtain ⟨hx, hy, hz⟩ := hl p
  rw [hx, hy, hz]
  exact h hh

/-- After the commands the plotter is where the pose then says, whatever the mode was before. -/
def Tracked (lines : List Gcode) (t : Track) : Prop :=
  ∀ (pose : Pose) (p : Plotter), Follows pose p → Follows (pose.after t) (p.run lines)

/-- The head moves only at the last of the commands, so that a batch that breaks off has not moved
it. -/
def Late : List Gcode → Prop
  | [] | [_] => True
  | line :: next :: rest => line.Still ∧ Late (next :: rest)

/-- A leg after which the plotter is where the controller then thinks, and which has not moved the
head before its last command. -/
structure Leg.Faithful (leg : Leg) : Prop where
  tracked : Tracked leg.lines leg.track
  late : Late leg.lines

namespace Leg

theorem faithful_home : Faithful ⟨false, .home, [], .origin⟩ :=
  ⟨fun _ _ _ _ => ⟨.refl 0, .refl 0, .refl 0⟩, trivial⟩

theorem faithful_homeAxis (axis : Axis) : Faithful ⟨false, .homeAxis axis, [], .set axis 0⟩ :=
  ⟨fun _ _ h => h.set axis fun _ => .refl 0, trivial⟩

theorem faithful_single {line : Gcode} (h : line.Still) : (single line).Faithful :=
  ⟨fun _ _ hf => hf.still h, trivial⟩

theorem faithful_tap (out back : Float) :
    Faithful ⟨false, .relativeStylus, [.move [(.e, out)] none, .move [(.e, back)] none], .keep⟩ :=
  ⟨fun _ _ hf => hf, fun _ => ⟨rfl, rfl, rfl⟩, Gcode.still_stylus out none, trivial⟩

theorem faithful_moveTo (settings : MotionSettings) (target : MoveTarget) :
    (moveTo settings target).Faithful := by
  have hplace (pose : Pose) (p : Plotter) (hf : Follows pose p) :
      Follows (pose.place target)
        (target.words.foldl Plotter.moveWord { p with relative := false }) := by
    rw [pose.place_eq]
    exact (hf.mode false).moveWords rfl target.words
  rw [moveTo]
  cases target.e with
  | none => exact ⟨hplace, fun _ => ⟨rfl, rfl, rfl⟩, trivial⟩
  | some travel =>
    exact ⟨hplace, fun _ => ⟨rfl, rfl, rfl⟩, fun _ => ⟨rfl, rfl, rfl⟩, trivial⟩

theorem faithful_moveAbsolute (axis : Axis) (position : Float) :
    (moveAbsolute axis position).Faithful :=
  ⟨fun _ _ hf => (hf.mode false).moveTo rfl axis position, fun _ => ⟨rfl, rfl, rfl⟩, trivial⟩

theorem faithful_moveRelative (axis : Axis) (distance : Float) :
    (moveRelative axis distance).Faithful :=
  ⟨fun _ _ hf => (hf.mode true).moveBy rfl axis distance, fun _ => ⟨rfl, rfl, rfl⟩, trivial⟩

end Leg

/-- **Every leg of every operation is faithful.** -/
theorem Operation.faithful_legs (settings : MotionSettings) (pose : Pose) (op : Operation) :
    ∀ leg ∈ op.legs settings pose, leg.Faithful := by
  cases op with
  | home => exact List.forall_mem_singleton.mpr Leg.faithful_home
  | tap =>
    exact List.forall_mem_singleton.mpr (Leg.faithful_tap settings.tapDepth (-settings.tapDepth))
  | off => exact List.forall_mem_singleton.mpr (Leg.faithful_single fun _ => ⟨rfl, rfl, rfl⟩)
  | finish => exact List.forall_mem_singleton.mpr (Leg.faithful_single fun _ => ⟨rfl, rfl, rfl⟩)
  | info => exact List.forall_mem_singleton.mpr (Leg.faithful_single fun _ => ⟨rfl, rfl, rfl⟩)
  | moveTo target => exact List.forall_mem_singleton.mpr (Leg.faithful_moveTo settings target)
  | moveAbsolute axis position =>
    exact List.forall_mem_singleton.mpr (Leg.faithful_moveAbsolute axis position)
  | moveRelative axis distance =>
    exact List.forall_mem_singleton.mpr (Leg.faithful_moveRelative axis distance)
  | swipe start goal =>
    simp only [legs, List.mem_cons, List.not_mem_nil, or_false]
    rintro leg (rfl | rfl | rfl) <;> exact Leg.faithful_moveTo settings _
  | load =>
    have habsolute := Leg.faithful_moveAbsolute settings.loadAxis settings.loadPosition
    have hrelative := Leg.faithful_moveRelative settings.loadAxis settings.loadPosition
    by_cases hh : pose.homed = true
    · rw [legs, if_pos hh]
      exact List.forall_mem_singleton.mpr habsolute
    · rw [legs, if_neg hh]
      simp only [List.mem_cons, List.not_mem_nil, or_false]
      rintro leg (rfl | rfl)
      · exact Leg.faithful_homeAxis settings.loadAxis
      · exact hrelative

end Stylus
