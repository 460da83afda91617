import Stylus.Proofs.Run.Moves
import Stylus.Proofs.Bench.Turns

/-!
# What is sent has been asked for

A bench makes up no commands: what it sends are the commands of stages that a guest has asked for,
or that a step of the plan under way comes to.  So whatever holds of all the commands that may be
asked for, holds of all that is sent.

* `Stage.Sends`, `Plan.Sends` — the commands that a stage, or a run of a plan, may come to have a
  property;
* `Bench.Event.Sends` — an event asks for nothing but such commands;
* `Bench.Sends` — the invariant: what has been sent, and what is still to be sent, has the property;
* `Bench.Sends.step` — **events that ask for nothing else keep it**.
-/

set_option autoImplicit false

namespace Stylus

variable {P : Gcode → Prop} {settings : MotionSettings}

/-! ## Commands that may be sent -/

/-- All commands of the stage have the property, wherever the head is. -/
def Stage.Sends (P : Gcode → Prop) (settings : MotionSettings) : Stage → Prop
  | .operate op => ∀ pose : Pose, ∀ line ∈ Leg.allLines (op.legs settings pose), P line
  | .homeUnlessHomed => P .home
  | .awaitReady _ => True

/-- All commands of the stages have the property. -/
def Stage.AllSend (P : Gcode → Prop) (settings : MotionSettings) (stages : List Stage) : Prop :=
  ∀ stage ∈ stages, stage.Sends P settings

/-- All commands that the steps of the plan may come to have the property. -/
def Plan.Sends (P : Gcode → Prop) (settings : MotionSettings) (plan : Plan) : Prop :=
  ∀ (cursor : Cursor) (now : Nat), ∀ step ∈ plan.script.steps, ∀ stages,
    cursor.take plan now step = .turn stages → Stage.AllSend P settings stages

/-- All commands that a run of the request may send have the property. -/
def RunRequest.Sends (P : Gcode → Prop) (settings : MotionSettings) (r : RunRequest) : Prop :=
  ∀ plan, r.plan = .ok plan → plan.Sends P settings

/-- What a turn has still to send has the property. -/
structure Turn.Sends (P : Gcode → Prop) (settings : MotionSettings) (turn : Turn) : Prop where
  activity : ∀ line ∈ turn.activity.lines, P line
  stages : Stage.AllSend P settings turn.stages

/-- What a turn that is not over has still to send has the property. -/
def TurnState.Sends (P : Gcode → Prop) (settings : MotionSettings) : TurnState → Prop
  | .busy activity stages => (∀ line ∈ activity.lines, P line) ∧ Stage.AllSend P settings stages
  | .over _ => True

/-! ## Turns -/

theorem Turn.GoesOn.sends {c : Controller} {now : Nat} {text : String} {legs : List Leg}
    {stages : List Stage} {s : TurnState} (h : GoesOn c now text legs stages s)
    (hc : c.settings = settings) (hlegs : ∀ line ∈ Leg.allLines legs, P line)
    (hstages : Stage.AllSend P settings stages) : s.Sends P settings := by
  induction h with
  | done | refused => exact trivial
  | asks => exact ⟨hlegs, hstages⟩
  | operate _ ih =>
    obtain ⟨hop, hrest⟩ := List.forall_mem_cons.mp hstages
    exact ih (hc ▸ hop c.pose) hrest
  | homed _ _ ih | awake _ _ ih => exact ih hlegs (List.forall_mem_cons.mp hstages).2
  | homes =>
    obtain ⟨hhome, hrest⟩ := List.forall_mem_cons.mp hstages
    exact ⟨List.forall_mem_singleton.mpr hhome, hrest⟩
  | sleeps => exact ⟨List.forall_mem_nil _, (List.forall_mem_cons.mp hstages).2⟩

namespace Turn.Sends

variable {turn : Turn} {c : Controller} {now : Nat}

theorem moved (h : turn.Sends P c.settings) {e : Bench.Event} {c' : Controller} {s : TurnState}
    (moved : turn.moved? c now e = some (c', s)) : s.Sends P c.settings := by
  have hwork {work : Work} (asking : turn.activity = .asking work) :
      ∀ line ∈ work.lines, P line := by
    have hactivity := h.activity
    rwa [asking] at hactivity
  have moved := moved_of_moved? moved
  generalize turn.answers e = sent at moved
  cases moved with
  | due _ goes => exact goes.sends rfl (List.forall_mem_nil _) h.stages
  | linked asking =>
    have hlines := hwork asking
    exact ⟨hlines, h.stages⟩
  | unlinked | failed => exact trivial
  | onward asking _ more =>
    have hlines := hwork asking
    rw [Work.lines, more] at hlines
    exact ⟨(List.forall_mem_cons.mp hlines).2, h.stages⟩
  | legDone asking _ _ goes =>
    refine goes.sends (c.track_settings _) (fun line hline => hwork asking line ?_) h.stages
    exact List.mem_append_right _ hline

/-- The command that is answered is the first of those which the turn has still to send. -/
theorem answers (h : turn.Sends P settings) (e : Bench.Event) : ∀ s ∈ turn.answers e, P s.1 := by
  intro s hs
  rw [Turn.answers.eq_def] at hs
  split at hs
  · split at hs
    · rename_i work ha
      have hactivity := h.activity
      rw [ha] at hactivity
      split at hs
      · cases hs
      · rename_i line hask
        rw [List.mem_singleton.mp hs]
        rw [Work.ask] at hask
        split at hask <;> cases hask
        exact hactivity _ List.mem_cons_self
    · cases hs
  · cases hs

end Turn.Sends

/-! ## The bench -/

namespace Bench

/-- The event asks for nothing but commands with the property. -/
def Event.Sends (P : Gcode → Prop) (settings : MotionSettings) : Event → Prop
  | .request r => r.Sends P settings
  | .queue _ stages => Stage.AllSend P settings stages
  | _ => True

/-- **What has been sent, and what may still be sent, has the property.** -/
structure Sends (P : Gcode → Prop) (b : Bench) : Prop where
  turns : ∀ turn ∈ b.line, turn.Sends P b.controller.settings
  run : ∀ run ∈ b.run, run.plan.Sends P b.controller.settings
  log : ∀ entry ∈ b.log, P entry.line

/-- The command that the plotter has not answered yet has the property too. -/
theorem Sends.work {b : Bench} (h : b.Sends P) {work : Work} (hw : b.work? = some work) :
    P work.line := by
  obtain ⟨turn, hb, ha⟩ := Option.bind_eq_some_iff.mp hw
  have hturn := h.turns turn (line_of_holder hb ▸ List.mem_cons_self)
  have hactivity := hturn.activity
  rw [Activity.work?_eq_some.mp ha] at hactivity
  exact hactivity _ List.mem_cons_self

theorem Sends.of_fresh (settings : MotionSettings) : (fresh settings).Sends P :=
  ⟨fun _ hm => absurd hm List.not_mem_nil, by rintro _ ⟨⟩, fun _ hm => absurd hm List.not_mem_nil⟩

variable {b : Bench}

theorem mem_line_queue {owner : Owner} {stages : List Stage} {turn : Turn}
    (h : turn ∈ (b.queue owner stages).line) : turn ∈ b.line ∨ turn = ⟨owner, .ready, stages⟩ := by
  rw [line, List.mem_append] at h ⊢
  rcases hb : b.holder with _ | holder
  · rw [queue_of_free hb] at h
    simp only [Option.toList_some, List.mem_singleton] at h
    exact h.elim .inr fun h => .inl (.inr h)
  · rw [queue_of_held hb] at h
    simp only [hb, List.mem_append, List.mem_singleton] at h
    rwa [← or_assoc] at h

theorem Sends.queue (h : b.Sends P) {owner : Owner} {stages : List Stage}
    (hstages : Stage.AllSend P b.controller.settings stages) : (b.queue owner stages).Sends P := by
  refine ⟨fun turn hturn => ?_, ?_, ?_⟩
  · rw [queue_controller]
    rcases mem_line_queue hturn with hturn | rfl
    · exact h.turns turn hturn
    · exact ⟨nofun, hstages⟩
  · rw [queue_run, queue_controller]
    exact h.run
  · rw [queue_log]
    exact h.log

/-- A bench with no other turns, and with no other plan. -/
theorem Sends.of_frame (h : b.Sends P) {b' : Bench} (line : ∀ turn ∈ b'.line, turn ∈ b.line)
    (controller : b'.controller.settings = b.controller.settings)
    (run : ∀ run ∈ b'.run, ∃ before ∈ b.run, run.plan = before.plan) (log : b'.log = b.log) :
    b'.Sends P := by
  refine ⟨fun turn hturn => ?_, fun run' hrun => ?_, ?_⟩
  · rw [controller]
    exact h.turns turn (line turn hturn)
  · obtain ⟨before, hbefore, hplan⟩ := run run' hrun
    rw [controller, hplan]
    exact h.run before hbefore
  · rw [log]
    exact h.log

theorem run_wakeRun (b : Bench) :
    ∀ run ∈ b.wakeRun.run, ∃ before ∈ b.run, run.plan = before.plan := by
  intro run hrun
  rcases hb : b.run with _ | before
  · rw [wakeRun_of_idle hb, hb] at hrun
    cases hrun
  · obtain ⟨phase, hwake, -⟩ := wakeRun_eq hb
    rw [hwake] at hrun
    cases hrun
    exact ⟨before, rfl, rfl⟩

theorem run_turnOver (b : Bench) (owner : Owner) (result : Except Failure String) :
    ∀ run ∈ (b.turnOver owner result).run, ∃ before ∈ b.run, run.plan = before.plan := by
  intro run hrun
  by_cases ho : owner = .run
  · rw [ho] at hrun
    rcases hb : b.run with _ | before
    · have hnone : b.handOn.run = none := by rw [handOn_eq, hb]
      simp only [turnOver, runTurnOver, hnone] at hrun
      cases hrun
    · rcases result with f | text
      · rw [turnOver_run_error hb] at hrun
        cases hrun
      · rw [turnOver_run_ok hb] at hrun
        cases hrun
        exact ⟨before, rfl, rfl⟩
  · rw [turnOver_guest ho, handOn_eq] at hrun
    exact ⟨run, hrun, rfl⟩

/-- **Events that ask for nothing but commands with the property keep everything sent so.** -/
theorem Sends.step (h : b.Sends P) {e : Event} (he : e.Sends P b.controller.settings) :
    (b.step e).Sends P := by
  have same : ∀ run ∈ b.run, ∃ before ∈ b.run, run.plan = before.plan :=
    fun run hrun => ⟨run, hrun, rfl⟩
  have hlog : ∀ entry ∈ (b.step e).log, P entry.line := by
    rw [move_log (b.move e)]
    intro entry hentry
    rcases List.mem_append.mp hentry with hentry | hentry
    · rw [entries] at hentry
      split at hentry
      · rename_i turn hb
        obtain ⟨s, hs, rfl⟩ := List.mem_map.mp hentry
        exact (h.turns turn (line_of_holder hb ▸ List.mem_cons_self)).answers e s hs
      · cases hentry
    · exact h.log entry hentry
  have hm := b.move e
  generalize b.step e = b' at hm hlog ⊢
  cases hm with
  | idle => exact h
  | pass span => exact h.of_frame (fun _ ht => ht) rfl same rfl
  | start accepted =>
    refine ⟨h.turns, ?_, h.log⟩
    rintro run ⟨⟩
    exact he _ accepted
  | wish _ wish =>
    exact h.of_frame (fun turn ht => by rwa [control, wakeRun_line] at ht)
      (congrArg Controller.settings (wakeRun_controller _)) (run_wakeRun _) (wakeRun_log _)
  | poll =>
    exact h.of_frame (fun turn ht => by rwa [wakeRun_line] at ht)
      (congrArg Controller.settings (wakeRun_controller _)) (run_wakeRun _) (wakeRun_log _)
  | queue guest stages => exact h.queue he
  | withdraw guest =>
    refine h.of_frame (fun turn ht => ?_) rfl same rfl
    rw [line, withdraw, List.mem_append] at ht
    exact List.mem_append.mpr (ht.imp id fun ht => (List.mem_filter.mp ht).1)
  | @busy _ turn c activity stages moving =>
    obtain ⟨hb, moved⟩ := moving?_eq_some.mp moving
    have hsettings := Turn.moved?_settings moved
    have hturn := (h.turns turn (line_of_holder hb ▸ List.mem_cons_self)).moved moved
    refine ⟨fun t ht => ?_, ?_, hlog⟩
    · show t.Sends P c.settings
      rw [hsettings]
      rcases List.mem_cons.mp ht with rfl | ht
      · exact ⟨hturn.1, hturn.2⟩
      · exact h.turns t (List.mem_append_right _ ht)
    · show ∀ run ∈ b.run, run.plan.Sends P c.settings
      rw [hsettings]
      exact h.run
  | @finish _ turn c result moving =>
    have hsettings := Turn.moved?_settings (moving?_eq_some.mp moving).2
    refine ⟨fun t ht => ?_, fun run hrun => ?_, hlog⟩
    · rw [line_turnOver] at ht
      rw [turnOver_controller]
      show t.Sends P c.settings
      rw [hsettings]
      exact h.turns t (List.mem_append_right _ ht)
    · obtain ⟨before, hbefore, hplan⟩ := run_turnOver _ _ _ run hrun
      rw [turnOver_controller, hplan]
      show before.plan.Sends P c.settings
      rw [hsettings]
      exact h.run before hbefore
  | stopped | completed | takeFailed => exact h.of_frame (fun _ ht => ht) rfl (by rintro _ ⟨⟩) rfl
  | @rest run run_eq =>
    refine h.of_frame (fun _ ht => ht) rfl ?_ rfl
    rintro _ ⟨⟩
    exact ⟨run, run_eq, rfl⟩
  | @takeTurn run step stages begins taken =>
    obtain ⟨hr, -, -, hstep⟩ := begins?_decide.mp begins
    have hworking : Sends P { b with run := some { run with phase := .working } } := by
      refine h.of_frame (fun _ ht => ht) rfl ?_ rfl
      rintro _ ⟨⟩
      exact ⟨run, hr, rfl⟩
    exact hworking.queue
      (h.run run hr run.cursor b.now step (List.mem_of_getElem? hstep) stages taken)
  | @takeDone run step cursor begins taken =>
    refine h.of_frame (fun _ ht => ht) rfl ?_ rfl
    rintro _ ⟨⟩
    exact ⟨run, (begins?_decide.mp begins).1, rfl⟩

end Bench

end Stylus
