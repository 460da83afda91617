import Stylus.Proofs.Motion.Courses
import Stylus.Proofs.Link.Failures

/-!
# What a failed operation leaves behind

An operation may fail at any command, or because there is no link, or it may be refused.  What the
controller then holds of the pose is what it held after the last leg of which every command has been
acknowledged; so an operation of one leg leaves everything as it was.

* `Finished.BreaksOff` — where an operation broke off, and what it leaves;
* `Course.Ends.breaksOff` — every operation that fails has broken off somewhere;
* `Logbook.Chain.homed_iff` — the plotter is homed if and only if it was at first, or a `home` went
  well;
* `Drive.failures_contained` — **all this along every history**, and observers see the pose
  throughout.
-/

set_option autoImplicit false

namespace Stylus

/-! ## Where an operation breaks off -/

/-- **Where an operation broke off**: the legs `done` were done, and nothing of any leg after `leg`
was sent. -/
structure Finished.BreaksOff (x : Finished) (done : List Leg) (leg : Leg) (rest : List Leg) :
    Prop where
  legs : x.legs = done ++ leg :: rest
  /-- of `leg` some commands were acknowledged, but not all -/
  acknowledged : ∃ acked unsent line, leg.lines = acked ++ line :: unsent ∧
    x.acknowledged = Leg.allLines done ++ acked ∧
    x.sent <+: Leg.allLines done ++ acked ++ [line]
  pose : x.after.pose = x.before.pose.through done
  published : x.after.published = x.before.pose.through done

namespace Answered

theorem acknowledged_of_good {xs : List Answered} (h : ∀ x ∈ xs, x.Good) :
    xs.filterMap acknowledged? = xs.filterMap sent? := by
  induction xs with
  | nil => rfl
  | cons x xs ih =>
    rw [List.forall_mem_cons] at h
    rw [List.filterMap_cons, List.filterMap_cons, acknowledged?_of_good h.1, ih h.2]

theorem sent_of_asks {xs : List Answered} {x : Course} {lines : List Gcode}
    (h : xs.map ask = x.opening ++ lines.map Ask.command) : xs.filterMap sent? = lines := by
  have hopening : x.opening.filterMap Ask.line? = [] := by
    rw [Course.opening]
    split <;> rfl
  have hsent : xs.filterMap sent? = (xs.map ask).filterMap Ask.line? := by
    rw [List.filterMap_map]
    rfl
  rw [hsent, h, List.filterMap_append, hopening, List.filterMap_map]
  exact List.filterMap_some

end Answered

namespace Course.Ends

/-- Observers see the pose when an operation is over. -/
theorem published {x : Course} {c : Controller} {result : Except Failure String}
    (h : x.Ends c result) (before : x.before.published = x.before.pose) : c.published = c.pose := by
  cases h with
  | refused _ _ _ same => exact same ▸ before
  | unlinked _ _ _ reached => exact reached.published before
  | broken _ _ _ _ _ _ reached => exact reached.published before
  | done _ _ _ _ reached => exact reached.published before

/-- **An operation that fails has broken off somewhere.** -/
theorem breaksOff {x : Finished} {f : Failure} (h : x.Ends x.after x.result)
    (hf : x.result = .error f) (before : x.before.published = x.before.pose) :
    ∃ done leg rest, x.BreaksOff done leg rest := by
  have hpublished := h.published before
  obtain ⟨first, others, hfirst⟩ :=
    List.exists_cons_of_ne_nil (x.op.legs_ne_nil x.before.settings x.before.pose)
  rw [hf] at h
  cases h with
  | refused needs unhomed silent same =>
    refine ⟨[], first, others, hfirst, ⟨[], first.others, first.first, rfl, ?_, ?_⟩, ?_, ?_⟩
    · simp [Course.acknowledged, silent, Leg.allLines]
    · rw [Course.sent, silent]
      exact List.nil_prefix
    · exact congrArg Controller.pose same
    · rw [hpublished]
      exact congrArg Controller.pose same
  | unlinked begun without record reached =>
    refine ⟨[], first, others, hfirst, ⟨[], first.others, first.first, rfl, ?_, ?_⟩,
      reached.pose, hpublished.trans reached.pose⟩
    · simp [Course.acknowledged, record, Answered.acknowledged?, Leg.allLines]
    · rw [Course.sent, record]
      exact List.nil_prefix
  | @broken _ done rest leg acked unsent line good begun legs lines record all_good asks reached =>
    have hsent := Answered.sent_of_asks asks
    refine ⟨done, leg, rest, legs, ⟨acked, unsent, line, lines, ?_, ?_⟩, reached.pose,
      hpublished.trans reached.pose⟩
    · rw [Course.acknowledged, record, List.filterMap_append,
        Answered.acknowledged_of_good all_good, hsent]
      exact List.append_nil _
    · rw [Course.sent, record, List.filterMap_append, hsent]
      exact List.prefix_refl _

/-- Only `home` changes whether the plotter is homed, and only if it goes well. -/
theorem homed_iff {x : Course} {c : Controller} {result : Except Failure String}
    (h : x.Ends c result) :
    c.pose.homed = true ↔
      x.before.pose.homed = true ∨ x.op = .home ∧ ∃ text, result = .ok text := by
  cases h with
  | refused _ _ _ same => simp [same]
  | unlinked _ _ _ reached => simp [reached.pose, Pose.through]
  | broken _ legs _ _ _ _ reached => simp [reached.pose, Operation.homed_through legs]
  | done _ _ _ _ reached =>
    rw [reached.pose, Course.legs, Operation.homed_through_legs]
    simp

end Course.Ends

/-! ## Histories -/

/-- The operations that take more than one batch of commands. -/
def Operation.isCompound : Operation → Bool
  | swipe _ _ | load => true
  | _ => false

theorem Operation.done_eq_nil {op : Operation} (h : op.isCompound = false)
    {settings : MotionSettings} {pose : Pose} {done rest : List Leg} {leg : Leg}
    (legs : op.legs settings pose = done ++ leg :: rest) : done = [] := by
  have hlength : (op.legs settings pose).length = 1 := by
    cases op with
    | swipe start goal => cases h
    | load => cases h
    | _ => rfl
  rw [legs, List.length_append, List.length_cons] at hlength
  exact List.eq_nil_of_length_eq_zero (by omega)

namespace Logbook

variable {start c : Controller} {past : List Finished}

theorem Chain.published (h : Chain start past c) (hs : start.published = start.pose) :
    c.published = c.pose ∧ ∀ x ∈ past, x.before.published = x.before.pose := by
  induction h with
  | nil => exact ⟨hs, by simp⟩
  | concat before ends ih =>
    refine ⟨ends.published ih.1, fun x hx => ?_⟩
    rcases List.mem_append.mp hx with hx | hx
    · exact ih.2 x hx
    · exact List.mem_singleton.mp hx ▸ ih.1

theorem Chain.ends (h : Chain start past c) {x : Finished} (hx : x ∈ past) :
    x.Ends x.after x.result := by
  induction h with
  | nil => cases hx
  | concat before ends ih =>
    rcases List.mem_append.mp hx with hx | hx
    · exact ih hx
    · exact List.mem_singleton.mp hx ▸ ends

/-- **The plotter is homed** if it was at first, or if a `home` has gone well. -/
theorem Chain.homed_iff (h : Chain start past c) :
    c.pose.homed = true ↔ start.pose.homed = true ∨
      ∃ x ∈ past, x.op = .home ∧ ∃ text, x.result = .ok text := by
  induction h with
  | nil => simp
  | concat before ends ih =>
    rw [ends.homed_iff, ih, or_assoc]
    refine or_congr_right ⟨?_, ?_⟩
    · rintro (⟨x, hx, hop⟩ | hop)
      · exact ⟨x, List.mem_append_left _ hx, hop⟩
      · exact ⟨_, List.mem_append_right _ (List.mem_singleton_self _), hop⟩
    · rintro ⟨x, hx, hop⟩
      rcases List.mem_append.mp hx with hx | hx
      · exact .inl ⟨x, hx, hop⟩
      · exact .inr (List.mem_singleton.mp hx ▸ hop)

/-- **What failures leave behind**, for a controller that held the pose `start` at first. -/
structure Contained (start : Pose) (d : Drive) (l : Logbook) : Prop where
  /-- observers see the pose -/
  published : d.controller.published = d.controller.pose
  /-- an operation of one batch that fails has changed nothing -/
  simple : ∀ x ∈ l.past, x.op.isCompound = false → ∀ f, x.result = .error f →
    x.after.pose = x.before.pose ∧ x.after.published = x.before.published
  /-- any operation that fails leaves what its legs have done that were done -/
  breaksOff : ∀ x ∈ l.past, ∀ f, x.result = .error f → ∃ done leg rest, x.BreaksOff done leg rest
  /-- an operation that is refused asks for nothing, not even a link, unless a link speaks of
  homing, which none does (`Link.failures_of_link`) -/
  refused : ∀ x ∈ l.past, x.result = .error .notHomed →
    (∀ y ∈ x.record, ∀ f, y.answer = .error f → f.isOfLink = true) → x.record = []
  /-- the plotter is homed exactly if a `home` has gone well -/
  homed : d.controller.pose.homed = true ↔ start.homed = true ∨
    ∃ x ∈ l.past, x.op = .home ∧ ∃ text, x.result = .ok text

end Logbook

theorem Course.Ends.silent_of_notHomed {x : Course} {c : Controller}
    (h : x.Ends c (.error .notHomed))
    (genuine : ∀ y ∈ x.record, ∀ f, y.answer = .error f → f.isOfLink = true) : x.record = [] := by
  cases h with
  | refused _ _ silent _ => exact silent
  | unlinked _ _ record _ => cases genuine ⟨.link, .error .notHomed⟩ (by simp [record]) _ rfl
  | @broken _ _ _ _ _ _ line _ _ _ _ record _ _ _ =>
    cases genuine ⟨.command line, .error .notHomed⟩ (by simp [record]) _ rfl

namespace Logbook

variable {start : Controller} {d : Drive} {l : Logbook}

theorem Fits.chain (h : Fits start d l) : ∃ c, Chain start l.past c ∧
    d.controller.pose.homed = c.pose.homed ∧
    (c.published = c.pose → d.controller.published = d.controller.pose) := by
  cases h with
  | idle _ chain => exact ⟨_, chain, rfl, id⟩
  | busy _ chain under =>
    refine ⟨_, chain, ?_, under.reached.published⟩
    rw [under.reached.pose, Operation.homed_through under.legs]

theorem Fits.contained (h : Fits start d l) (hs : start.published = start.pose) :
    l.Contained start.pose d := by
  obtain ⟨c, chain, hhomed, hpublished⟩ := h.chain
  obtain ⟨hlast, hbefore⟩ := chain.published hs
  refine ⟨hpublished hlast, ?_, ?_, ?_, ?_⟩
  · intro x hx simple f hf
    obtain ⟨done, leg, rest, breaks⟩ := (chain.ends hx).breaksOff hf (hbefore x hx)
    obtain rfl := Operation.done_eq_nil simple breaks.legs
    exact ⟨breaks.pose, breaks.published.trans (hbefore x hx).symm⟩
  · intro x hx f hf
    exact (chain.ends hx).breaksOff hf (hbefore x hx)
  · intro x hx hf genuine
    exact (hf ▸ chain.ends hx).silent_of_notHomed genuine
  · rw [hhomed]
    exact chain.homed_iff

end Logbook

namespace Drive

/-- A controller in any state, with no operation under way. -/
def resting (settings : MotionSettings) (linked : Bool) (pose : Pose) (plotter : Plotter) : Drive :=
  { controller := { settings, linked, pose, published := pose }, plotter }

/-- **A failed operation leaves what was acknowledged.**  Whatever the controller holds at first,
whatever operations are begun, and wherever links are not made or commands fail: see
`Logbook.Contained`. -/
theorem failures_contained (settings : MotionSettings) (linked : Bool) (pose : Pose)
    (plotter : Plotter) (events : List Event) :
    ((resting settings linked pose plotter).watched events).2.Contained pose
      ((resting settings linked pose plotter).watched events).1 :=
  (Logbook.fits_watched (d := resting settings linked pose plotter) rfl events).contained rfl

/-- A swipe that breaks off on the way to the middle has taken the head to where it starts. -/
def swipeBrokenOff : List Event :=
  [.operate (.swipe ⟨1, 2⟩ ⟨3, 4⟩), .answer (.ok "ok") false, .answer (.ok "ok") false,
    .answer (.ok "ok") false, .answer (.ok "ok") false, .answer (.error .noDevice) false]

example (settings : MotionSettings) (plotter : Plotter) :
    ((resting settings true .origin plotter).watched swipeBrokenOff).1.controller.pose =
      ⟨true, 1, 2, 0⟩ := rfl

end Drive

end Stylus
