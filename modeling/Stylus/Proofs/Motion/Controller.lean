import Stylus.Motion.Controller

/-!
# The controller, answer by answer

`Controller.answered` asks first whether a link was wanted, then whether the answer was good, then
whether commands of the leg are left.  Here is what it comes to, with one case for each of the ways,
and what every operation leaves alone.

* `Work.lines` — the commands that an operation under way has still to send;
* `Pose.homed_after` — when a leg leaves the plotter homed;
* `Controller.next_cases` — what becomes of the legs that are left;
* `Controller.Takes`, `Controller.takes_answered` — an answer, case by case.
-/

set_option autoImplicit false

namespace Stylus

/-- The commands of legs, laid end to end. -/
def Leg.allLines (legs : List Leg) : List Gcode :=
  legs.flatMap Leg.lines

/-- Every operation has something to send. -/
theorem Operation.legs_ne_nil (op : Operation) (settings : MotionSettings) (pose : Pose) :
    op.legs settings pose ≠ [] := by
  cases op with
  | load =>
    rw [legs]
    split <;> exact List.cons_ne_nil _ _
  | _ => exact List.cons_ne_nil _ _

/-- The commands of an operation under way, from the one it waits for on. -/
def Work.lines (work : Work) : List Gcode :=
  work.line :: work.rest ++ Leg.allLines work.legs

theorem Work.ask_of_linking {work : Work} (h : work.linking = true) : work.ask = .link := by
  rw [ask, if_pos h]

theorem Work.ask_of_not_linking {work : Work} (h : work.linking = false) :
    work.ask = .command work.line := by
  rw [ask, h, if_neg Bool.false_ne_true]

/-- The plotter is known to be homed after a leg if it was before, or if the leg homes it. -/
theorem Pose.homed_after {pose : Pose} {t : Track} :
    (pose.after t).homed = true ↔ pose.homed = true ∨ t = .origin := by
  cases t with
  | origin => simp [after, origin]
  | set axis position => cases axis <;> simp [after, set]
  | shift axis distance => cases axis <;> simp [after, get?, set]
  | _ => simp [after, place]

namespace Controller

/-! ## Starting a leg -/

/-- A leg is begun if the plotter is homed or need not be. -/
theorem next_cons {c : Controller} {leg : Leg} (h : leg.needsHome = true → c.pose.homed = true)
    (text : String) (legs : List Leg) :
    c.next text (leg :: legs) = .asking ⟨!c.linked, leg.first, leg.others, leg.track, legs⟩ := by
  rw [next, if_neg]
  simpa using h

/-- Of the legs that are left there is none, or the first is refused, or it is begun. -/
theorem next_cases (c : Controller) (text : String) (legs : List Leg) :
    (legs = [] ∧ c.next text legs = .over (.ok text)) ∨
      c.next text legs = .over (.error .notHomed) ∨
      ∃ leg rest, legs = leg :: rest ∧ (leg.needsHome = true → c.pose.homed = true) ∧
        c.next text legs = .asking ⟨!c.linked, leg.first, leg.others, leg.track, rest⟩ := by
  cases legs with
  | nil => exact .inl ⟨rfl, rfl⟩
  | cons leg rest =>
    rw [next]
    by_cases h : (leg.needsHome && !c.pose.homed) = true
    · exact .inr (.inl (if_pos h))
    · refine .inr (.inr ⟨leg, rest, rfl, ?_, if_neg h⟩)
      intro hn
      simpa [hn] using h

/-- Homing is never refused. -/
theorem begin_home (c : Controller) :
    c.begin .home = .asking ⟨!c.linked, .home, [], .origin, []⟩ := by
  simp [begin, Operation.legs, next]

/-! ## Answers -/

variable {c : Controller} {work : Work}

/-- **The ways in which an answer is taken**, with what becomes of the controller and of the
operation. -/
inductive Takes (c : Controller) (work : Work) :
    Except Failure String → Controller → Progress → Prop where
  /-- the link is made -/
  | linked (linking : work.linking = true) (text : String) :
      Takes c work (.ok text) { c with linked := true } (.asking { work with linking := false })
  /-- the link is not made -/
  | unlinked (linking : work.linking = true) (f : Failure) :
      Takes c work (.error f) c (.over (.error f))
  /-- the command fails -/
  | failed (asked : work.linking = false) (f : Failure) :
      Takes c work (.error f) { c with linked := c.linked && !f.isLinkLost } (.over (.error f))
  /-- the next command of the leg is due -/
  | onward (asked : work.linking = false) {line : Gcode} {rest : List Gcode}
      (more : work.rest = line :: rest) (text : String) :
      Takes c work (.ok text) c (.asking { work with line, rest })
  /-- the leg is done, and the next one is due -/
  | legDone (asked : work.linking = false) (last : work.rest = []) (text : String) :
      Takes c work (.ok text) (c.track work.track) ((c.track work.track).next text work.legs)

theorem takes_answered (c : Controller) (work : Work) (answer : Except Failure String) :
    c.Takes work answer (c.answered work answer).1 (c.answered work answer).2 := by
  rw [answered.eq_def]
  split
  · rename_i linking
    split
    · exact .linked linking _
    · exact .unlinked linking _
  · rename_i linking
    have asked : work.linking = false := by simpa using linking
    split
    · exact .failed asked _
    · split
      · rename_i more
        exact .onward asked more _
      · rename_i last
        exact .legDone asked last _

/-! ## What is left alone -/

/-- A controller takes note of a leg, and of nothing else but the pose. -/
theorem track_pose (c : Controller) (t : Track) : (c.track t).pose = c.pose.after t := by
  cases t <;> rfl

theorem track_linked (c : Controller) (t : Track) : (c.track t).linked = c.linked := by
  cases t <;> rfl

/-- Observers see the pose. -/
theorem track_published {c : Controller} (h : c.published = c.pose) (t : Track) :
    (c.track t).published = (c.track t).pose := by
  cases t with
  | keep => exact h
  | _ => rfl

theorem track_settings (c : Controller) (t : Track) : (c.track t).settings = c.settings := by
  cases t <;> rfl

end Controller

end Stylus
