import Stylus.Proofs.Motion.Plotter

/-!
# The pose is where the head is

A `Drive` is a controller together with the plotter at the other end of its link.  Operations are
begun one after the other, each when the one before it is over, and everything asked for meanwhile
is answered well or badly: links that are not made, commands that are not acknowledged and then are
not carried out either.  All along, the controller's pose is where the plotter is, once it is homed.

* `Drive.step`, `Drive.steps` — what happens to the two;
* `Work.Upright` — the invariant of an operation under way;
* `Drive.pose_tracked` — the pose is where the plotter is.

What a plotter does on making a link is left open as far as its mode goes: the commands that make a
link ready may have set it or not.
-/

set_option autoImplicit false

namespace Stylus

open Number

/-- A controller with an operation under way, or none, and the plotter that it moves. -/
structure Drive where
  controller : Controller
  work : Option Work := none
  plotter : Plotter

namespace Drive

inductive Event where
  /-- an operation is begun, if none is under way -/
  | operate (op : Operation)
  /-- what was asked for is answered; `relative` is the mode that making a link leaves behind -/
  | answer (a : Except Failure String) (relative : Bool)

/-- The operation that goes on. -/
def under : Progress → Option Work
  | .asking work => some work
  | .over _ => none

/-- What the plotter does about what it is asked for: a command that is not acknowledged is not
carried out. -/
def obey (p : Plotter) (relative : Bool) : Ask → Except Failure String → Plotter
  | .link, _ => { p with relative }
  | .command line, .ok _ => p.execute line
  | .command _, .error _ => p

/-- What an event does. -/
def step (d : Drive) : Event → Drive
  | .operate op =>
    match d.work with
    | none => { d with work := under (d.controller.begin op) }
    | some _ => d
  | .answer a relative =>
    match d.work with
    | none => d
    | some work =>
      { controller := (d.controller.answered work a).1
        work := under (d.controller.answered work a).2
        plotter := obey d.plotter relative work.ask a }

/-- A controller that has done nothing yet, with a plotter that may be anywhere. -/
def fresh (settings : MotionSettings) (plotter : Plotter) : Drive :=
  { controller := { settings := settings }, plotter := plotter }

/-- What a sequence of events does. -/
def steps (d : Drive) (events : List Event) : Drive :=
  events.foldl step d

end Drive

/-! ## An operation under way -/

/-- **What holds of an operation under way**, for a pose and a plotter that agree. -/
structure Work.Upright (work : Work) (pose : Pose) (p : Plotter) : Prop where
  /-- before a link is made the leg is whole, so the mode does not matter -/
  linking : work.linking = true → Tracked (work.line :: work.rest) work.track
  /-- what is left of the leg takes the plotter to where the pose will then be -/
  leg : work.linking = false →
    Follows (pose.after work.track) (p.run (work.line :: work.rest))
  late : Late (work.line :: work.rest)
  legs : ∀ leg ∈ work.legs, leg.Faithful

/-- A leg just begun. -/
theorem Leg.Faithful.upright {leg : Leg} (h : leg.Faithful) {pose : Pose} {p : Plotter}
    (hf : Follows pose p) (linking : Bool) {legs : List Leg} (hlegs : ∀ leg ∈ legs, leg.Faithful) :
    Work.Upright ⟨linking, leg.first, leg.others, leg.track, legs⟩ pose p :=
  ⟨fun _ => h.tracked, fun _ => h.tracked pose p hf, h.late, hlegs⟩

namespace Drive

/-- **The pose is where the plotter is, and the operation under way keeps it so.** -/
structure Agrees (d : Drive) : Prop where
  follows : Follows d.controller.pose d.plotter
  upright : ∀ work : Work, d.work = some work → work.Upright d.controller.pose d.plotter

theorem upright_next {c : Controller} {p : Plotter} (hf : Follows c.pose p) (text : String)
    {legs : List Leg} (hlegs : ∀ leg ∈ legs, leg.Faithful) (work : Work)
    (h : under (c.next text legs) = some work) : work.Upright c.pose p := by
  rcases c.next_cases text legs with ⟨-, hn⟩ | hn | ⟨leg, rest, rfl, -, hn⟩ <;> rw [hn] at h
  · cases h
  · cases h
  · cases h
    refine (hlegs leg List.mem_cons_self).upright hf _ fun l hl => ?_
    exact hlegs l (List.mem_cons_of_mem _ hl)

theorem Agrees.operate {d : Drive} (h : d.Agrees) (op : Operation) :
    (d.step (.operate op)).Agrees := by
  rw [step]
  split
  · exact ⟨h.follows, upright_next h.follows "" (op.faithful_legs _ _)⟩
  · exact h

theorem Agrees.answer {d : Drive} (h : d.Agrees) (a : Except Failure String) (relative : Bool) :
    (d.step (.answer a relative)).Agrees := by
  rw [step]
  split
  · exact h
  · rename_i work hw
    have hu := h.upright work hw
    have taken := d.controller.takes_answered work a
    generalize (d.controller.answered work a).1 = c, (d.controller.answered work a).2 = progress
      at taken ⊢
    cases taken with
    | linked linking text =>
      rw [Work.ask_of_linking linking]
      refine ⟨h.follows.mode relative, ?_⟩
      rintro _ ⟨⟩
      refine ⟨by simp, fun _ => ?_, hu.late, hu.legs⟩
      exact hu.linking linking _ _ (h.follows.mode relative)
    | unlinked linking f =>
      rw [Work.ask_of_linking linking]
      exact ⟨h.follows.mode relative, by simp [under]⟩
    | failed asked f =>
      rw [Work.ask_of_not_linking asked]
      exact ⟨h.follows, by simp [under]⟩
    | onward asked more text =>
      have hleg := hu.leg asked
      have hlate := hu.late
      rw [more] at hleg hlate
      rw [Work.ask_of_not_linking asked]
      refine ⟨h.follows.still hlate.1, ?_⟩
      rintro _ ⟨⟩
      exact ⟨by simp [asked], fun _ => hleg, hlate.2, hu.legs⟩
    | legDone asked last text =>
      have hleg := hu.leg asked
      rw [last] at hleg
      have hf : Follows (d.controller.track work.track).pose (d.plotter.execute work.line) := by
        rw [Controller.track_pose]
        exact hleg
      rw [Work.ask_of_not_linking asked]
      exact ⟨hf, upright_next hf text hu.legs⟩

/-- Every event keeps controller and plotter in agreement. -/
theorem Agrees.step {d : Drive} (h : d.Agrees) (e : Event) : (d.step e).Agrees := by
  cases e with
  | operate op => exact h.operate op
  | answer a relative => exact h.answer a relative

theorem Agrees.steps {d : Drive} (h : d.Agrees) (events : List Event) :
    (d.steps events).Agrees := by
  induction events generalizing d with
  | nil => exact h
  | cons e events ih => exact ih (h.step e)

/-- **The pose is where the head is.**  Whatever operations are begun, wherever the plotter was at
first, and whatever fails on the way: while the controller holds the plotter to be homed, its
coordinates are those of the plotter but for the signs of zeros. -/
theorem pose_tracked {settings : MotionSettings} {plotter : Plotter} {events : List Event}
    (homed : ((fresh settings plotter).steps events).controller.pose.homed = true) :
    Alike ((fresh settings plotter).steps events).controller.pose.x
        ((fresh settings plotter).steps events).plotter.x ∧
      Alike ((fresh settings plotter).steps events).controller.pose.y
        ((fresh settings plotter).steps events).plotter.y ∧
      Alike ((fresh settings plotter).steps events).controller.pose.z
        ((fresh settings plotter).steps events).plotter.z := by
  have hfresh : (fresh settings plotter).Agrees :=
    ⟨by rintro ⟨⟩, by rintro _ ⟨⟩⟩
  exact (hfresh.steps events).follows homed

/-- The plotter is homed, and a move by a distance breaks off before the head moves. -/
def homedThenStuck : List Event :=
  [.operate .home, .answer (.ok "") false, .answer (.ok "ok") false,
    .operate (.moveRelative .x 1), .answer (.ok "ok") false,
    .answer (.error (.transportTimeout 100)) false]

theorem pose_tracked_homedThenStuck :
    ((fresh {} ⟨5, 6, 7, false⟩).steps homedThenStuck).controller.pose.homed = true ∧
      Alike 0 ((fresh {} ⟨5, 6, 7, false⟩).steps homedThenStuck).plotter.x := by
  have homed : ((fresh {} ⟨5, 6, 7, false⟩).steps homedThenStuck).controller.pose.homed = true :=
    rfl
  exact ⟨homed, (pose_tracked homed).1⟩

end Drive

end Stylus
