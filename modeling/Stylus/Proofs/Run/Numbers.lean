import Stylus.Proofs.Document.Proper
import Stylus.Proofs.Motion.Spelling
import Stylus.Proofs.Run.Layouts
import Stylus.Proofs.Run.Sends

/-!
# Where the numbers in commands come from

A command has no numbers but those of the settings, of the target or the distance that was asked
for, and of points in layouts; the middle of a swipe lies between two of those.  The pose, which is
a sum of distances and so may well overflow, gets into no command.

* `MotionSettings.Finite`, `Layout.Finite`, `Operation.Finite` — all the numbers are finite;
* `Operation.finite_legs` — **then so are those of all commands of the operation**;
* `RunRequest.Finite.sends` — and those of all commands of a run whose layouts are finite;
* `Layout.yields_reader` — the layouts in documents are.
-/

set_option autoImplicit false

namespace Stylus

/-! ## Settings, points and targets -/

/-- The numbers of the settings are finite. -/
structure MotionSettings.Finite (settings : MotionSettings) : Prop where
  feedRate : Number.isFinite settings.feedRate = true
  tapDepth : Number.isFinite settings.tapDepth = true
  swipeDepth : Number.isFinite settings.swipeDepth = true
  loadPosition : Number.isFinite settings.loadPosition = true

/-- Both coordinates are finite. -/
structure Point.Finite (p : Point) : Prop where
  x : Number.isFinite p.x = true
  y : Number.isFinite p.y = true

/-- Coordinates are halved before they are added, so the sum does not overflow. -/
theorem Point.Finite.midpoint {a b : Point} (ha : a.Finite) (hb : b.Finite) :
    (a.midpoint b).Finite :=
  ⟨Number.isFinite_roundAway (Number.isFinite_mean ha.x hb.x),
    Number.isFinite_roundAway (Number.isFinite_mean ha.y hb.y)⟩

/-- The axes that are named have finite values. -/
structure MoveTarget.Finite (target : MoveTarget) : Prop where
  x : ∀ v ∈ target.x, Number.isFinite v = true
  y : ∀ v ∈ target.y, Number.isFinite v = true
  z : ∀ v ∈ target.z, Number.isFinite v = true
  e : ∀ v ∈ target.e, Number.isFinite v = true

namespace MoveTarget

theorem finite_ofPoint {p : Point} (h : p.Finite) : (ofPoint p).Finite :=
  ⟨fun _ hv => Option.mem_some.mp hv ▸ h.x, fun _ hv => Option.mem_some.mp hv ▸ h.y, nofun, nofun⟩

theorem Finite.withStylus {target : MoveTarget} (h : target.Finite) {travel : Float}
    (htravel : Number.isFinite travel = true) : (target.withStylus travel).Finite :=
  { h with e := fun _ hv => Option.mem_some.mp hv ▸ htravel }

theorem finite_word? {axis : Axis} {value : Option Float}
    (h : ∀ v ∈ value, Number.isFinite v = true) :
    ∀ w ∈ word? axis value, Number.isFinite w.2 = true := by
  intro w hw
  obtain ⟨v, hv, rfl⟩ := Option.map_eq_some_iff.mp (Option.mem_toList.mp hw)
  exact h v hv

theorem Finite.words {target : MoveTarget} (h : target.Finite) :
    ∀ w ∈ target.words, Number.isFinite w.2 = true := by
  simp only [MoveTarget.words, List.forall_mem_append]
  exact ⟨⟨⟨finite_word? h.x, finite_word? h.y⟩, finite_word? h.z⟩, finite_word? h.e⟩

end MoveTarget

/-! ## Operations -/

namespace Gcode

theorem finite_of_no_values {line : Gcode} (h : line.values = []) : line.Finite := by
  rw [Finite, h]
  exact nofun

theorem finite_move {words : List (Axis × Float)} {feed : Option Float}
    (hwords : ∀ w ∈ words, Number.isFinite w.2 = true)
    (hfeed : ∀ v ∈ feed, Number.isFinite v = true) : (move words feed).Finite := by
  intro v hv
  rcases List.mem_append.mp hv with hv | hv
  · obtain ⟨w, hw, rfl⟩ := List.mem_map.mp hv
    exact hwords w hw
  · exact hfeed v (Option.mem_toList.mp hv)

/-- A move of one axis. -/
theorem finite_moveAxis (axis : Axis) {v : Float} (h : Number.isFinite v = true) :
    (move [(axis, v)] none).Finite :=
  finite_move (List.forall_mem_singleton.mpr h) nofun

end Gcode

namespace Leg

/-- All numbers of the commands of the leg are finite. -/
def Finite (leg : Leg) : Prop :=
  ∀ line ∈ leg.lines, line.Finite

theorem finite_single {line : Gcode} (h : line.values = []) : (single line).Finite :=
  List.forall_mem_singleton.mpr (Gcode.finite_of_no_values h)

/-- A leg that sets a mode first, and then moves. -/
theorem finite_cons {needsHome : Bool} {first : Gcode} {others : List Gcode} {track : Track}
    (h : first.values = []) (hothers : ∀ line ∈ others, line.Finite) :
    Finite ⟨needsHome, first, others, track⟩ :=
  List.forall_mem_cons.mpr ⟨Gcode.finite_of_no_values h, hothers⟩

theorem finite_moveTo {settings : MotionSettings} (hs : settings.Finite) {target : MoveTarget}
    (h : target.Finite) : (moveTo settings target).Finite := by
  have hmove : (Gcode.move target.words (some settings.feedRate)).Finite :=
    Gcode.finite_move h.words fun v hv => Option.mem_some.mp hv ▸ hs.feedRate
  rw [moveTo]
  split
  · exact finite_cons rfl (List.forall_mem_cons.mpr ⟨Gcode.finite_of_no_values rfl,
      List.forall_mem_singleton.mpr hmove⟩)
  · exact finite_cons rfl (List.forall_mem_singleton.mpr hmove)

theorem finite_moveAbsolute (axis : Axis) {position : Float}
    (h : Number.isFinite position = true) : (moveAbsolute axis position).Finite :=
  finite_cons rfl (List.forall_mem_singleton.mpr (Gcode.finite_moveAxis axis h))

theorem finite_moveRelative (axis : Axis) {distance : Float}
    (h : Number.isFinite distance = true) : (moveRelative axis distance).Finite :=
  finite_cons rfl (List.forall_mem_singleton.mpr (Gcode.finite_moveAxis axis h))

end Leg

namespace Operation

/-- All numbers that the operation was asked for with are finite. -/
def Finite : Operation → Prop
  | moveTo target => target.Finite
  | moveAbsolute _ v | moveRelative _ v => Number.isFinite v = true
  | swipe start goal => start.Finite ∧ goal.Finite
  | home | tap | off | finish | info | load => True

/-- **All numbers of the commands of an operation are finite**, wherever the head is, if those of
the settings are and those that it was asked for with. -/
theorem finite_legs {settings : MotionSettings} (hs : settings.Finite) {op : Operation}
    (h : op.Finite) (pose : Pose) : ∀ leg ∈ op.legs settings pose, leg.Finite := by
  match op, h with
  | .home, _ => exact List.forall_mem_singleton.mpr (Leg.finite_cons rfl nofun)
  | .tap, _ =>
    refine List.forall_mem_singleton.mpr (Leg.finite_cons rfl (List.forall_mem_cons.mpr ⟨?_, ?_⟩))
    · exact Gcode.finite_moveAxis .e hs.tapDepth
    · exact List.forall_mem_singleton.mpr
        (Gcode.finite_moveAxis .e (Number.isFinite_neg hs.tapDepth))
  | .off, _ | .finish, _ | .info, _ => exact List.forall_mem_singleton.mpr (Leg.finite_single rfl)
  | .moveTo target, h => exact List.forall_mem_singleton.mpr (Leg.finite_moveTo hs h)
  | .moveAbsolute axis position, h =>
    exact List.forall_mem_singleton.mpr (Leg.finite_moveAbsolute axis h)
  | .moveRelative axis distance, h =>
    exact List.forall_mem_singleton.mpr (Leg.finite_moveRelative axis h)
  | .swipe start goal, ⟨hstart, hgoal⟩ =>
    have hmiddle := MoveTarget.finite_ofPoint (hstart.midpoint hgoal)
    have hlast := MoveTarget.finite_ofPoint hgoal
    simp only [legs, List.mem_cons, List.not_mem_nil, or_false]
    rintro leg (rfl | rfl | rfl)
    · exact Leg.finite_moveTo hs (MoveTarget.finite_ofPoint hstart)
    · exact Leg.finite_moveTo hs (hmiddle.withStylus hs.swipeDepth)
    · exact Leg.finite_moveTo hs (hlast.withStylus (Number.isFinite_neg hs.swipeDepth))
  | .load, _ =>
    by_cases homed : pose.homed = true
    · rw [legs, if_pos homed]
      exact List.forall_mem_singleton.mpr (Leg.finite_moveAbsolute _ hs.loadPosition)
    · rw [legs, if_neg homed]
      simp only [List.mem_cons, List.not_mem_nil, or_false]
      rintro leg (rfl | rfl)
      · exact Leg.finite_cons rfl nofun
      · exact Leg.finite_moveRelative _ hs.loadPosition

end Operation

namespace Stage

/-- All numbers that the stage was asked for with are finite. -/
def Finite : Stage → Prop
  | operate op => op.Finite
  | homeUnlessHomed | awaitReady _ => True

theorem sends_of_finite {settings : MotionSettings} (hs : settings.Finite) {stage : Stage}
    (h : stage.Finite) : stage.Sends Gcode.Finite settings := by
  match stage, h with
  | .operate op, h =>
    intro pose line hline
    obtain ⟨leg, hleg, hline⟩ := List.mem_flatMap.mp hline
    exact Operation.finite_legs hs h pose leg hleg line hline
  | .homeUnlessHomed, _ => exact Gcode.finite_of_no_values rfl
  | .awaitReady _, _ => exact trivial

end Stage

/-! ## Layouts and runs -/

/-- All points of both sides are finite. -/
def SidePositions.Finite (positions : SidePositions) : Prop :=
  ∀ side, ∀ e ∈ (positions.on side).entries, e.2.Finite

/-- All points of the layout are finite. -/
def Layout.Finite (layout : Layout) : Prop :=
  layout.positions.Finite

theorem Layout.Finite.resolve {layout : Layout} (h : layout.Finite) {side : Side}
    {location : String} {p : Point} (resolved : layout.resolve side location = .ok p) :
    p.Finite := by
  rw [Layout.resolve] at resolved
  split at resolved
  · rename_i hget
    cases resolved
    obtain ⟨e, he, rfl⟩ := Option.map_eq_some_iff.mp hget
    exact h side e (List.mem_of_find?_eq_some he)
  · cases resolved

/-- The layouts of the plan are finite. -/
def Plan.Finite (plan : Plan) : Prop :=
  ∀ side, ∀ layout ∈ plan.layout? side, layout.Finite

theorem Plan.Finite.resolve {plan : Plan} (h : plan.Finite) {side : Option Side} {location : String}
    {p : Point} (resolved : plan.resolve side location = .ok p) : p.Finite := by
  rw [Plan.resolve] at resolved
  split at resolved
  · cases resolved
  · rename_i layout hlayout
    exact (h _ layout hlayout).resolve resolved

/-- What a step comes to at the controller was asked for with points of the layouts. -/
theorem Plan.Finite.stages {plan : Plan} (h : plan.Finite) {cursor : Cursor} {now : Nat}
    {step : Step} {stages : List Stage} (taken : cursor.take plan now step = .turn stages) :
    ∀ stage ∈ stages, stage.Finite := by
  cases Cursor.take_iff.mp taken with
  | tap resolved =>
    have hp := MoveTarget.finite_ofPoint (h.resolve resolved)
    simp [Cursor.tapStages, Stage.Finite, Operation.Finite, hp]
  | swipe resolved resolved' =>
    have hs := h.resolve resolved
    have hg := h.resolve resolved'
    have htarget := MoveTarget.finite_ofPoint hs
    simp [Cursor.swipeStages, Stage.Finite, Operation.Finite, htarget, hs, hg]
  | load => exact List.forall_mem_singleton.mpr trivial

/-- The layouts of the request are finite. -/
def RunRequest.Finite (r : RunRequest) : Prop :=
  ∀ side, ∀ layout ∈ r.layout? side, layout.Finite

/-- **All numbers of the commands of a run are finite**, if its layouts are and the settings. -/
theorem RunRequest.Finite.sends {r : RunRequest} (h : r.Finite) {settings : MotionSettings}
    (hs : settings.Finite) : r.Sends Gcode.Finite settings := by
  intro plan planned cursor now step _ stages taken stage hstage
  have covers := Plan.covers_of_plan planned
  have hplan : plan.Finite := fun side layout hlayout =>
    h side layout (covers.layouts side ▸ hlayout)
  exact Stage.sends_of_finite hs (hplan.stages taken stage hstage)

/-! ## Layouts in documents -/

namespace Point

theorem yields_record : record.Yields Finite :=
  .seq (.map (.required .real) fun _ hx _ hy => ⟨hx, hy⟩) (.required .real)

end Point

namespace SidePositions

theorem yields_indexReader : indexReader.Yields fun ix => ∀ e ∈ ix.entries, e.2.Finite :=
  .map (Point.yields_record.reader _)

theorem yields_record : record.Yields Finite := by
  have hempty : ∀ e ∈ (Index.empty : Index Point).entries, e.2.Finite :=
    fun e he => absurd he List.not_mem_nil
  refine .seq (.map (.defaulted hempty yields_indexReader) fun left hleft right hright side => ?_)
    (.defaulted hempty yields_indexReader)
  match side with
  | .left => exact hleft
  | .right => exact hright

end SidePositions

/-- **The layouts in documents are finite.** -/
theorem Layout.yields_reader : reader.Yields Finite := by
  have hempty : SidePositions.Finite {} := by
    rintro (_ | _) e he <;> exact absurd he List.not_mem_nil
  have hpositions := SidePositions.yields_record.reader "struct SidePositions"
  have hrecord : record.Yields Finite :=
    .seq (.map (.defaulted trivial .any) fun _ _ _ h => h) (.defaulted hempty hpositions)
  exact hrecord.reader "struct Layout"

end Stylus
