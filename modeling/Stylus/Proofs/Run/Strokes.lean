import Stylus.Proofs.Bench.Failures
import Stylus.Proofs.Run.Chapters
import Stylus.Proofs.Run.Undisturbed

/-!
# The stylus is up between steps

The drive of the stylus knows distances only, so the stylus is where it was if it was taken back as
far as it was let out.  Letting it out and taking it back are commands of their own, with time
enough between them for a pause, a stop, or someone else's wishes.  But all of these wait for the
end of the step, and within a step the two belong together.

* `Gcode.strokes` — what commands have the stylus do;
* `Step.strokes` — what a step is to have it do: once out and once back by the same depth, or
  nothing;
* `Turn.moved?_spends` — every event that moves a turn takes off its strokes just those it has made;
* `strokeLaw` — so a step that has passed has made just the strokes it is to make;
* `Bench.stylus_raised` — **whenever a run rests between steps, or has ended without a failure,
  every step has taken the stylus back as far as it has let it out**.

Loading sends other commands to a plotter that is not homed, but these move the stylus no more than
those to one that is; this is why strokes can be told beforehand although commands cannot.
-/

set_option autoImplicit false

namespace Stylus

/-! ## Strokes -/

namespace Gcode

/-- The values of the words that name the drive of the stylus. -/
def stylusWords : Gcode → List Float
  | .move words _ => words.filterMap fun w => if w.1 = .e then some w.2 else none
  | .maxFeed limits => [limits.e]
  | _ => []

/-- The values of all such words, in order. -/
def strokes (lines : List Gcode) : List Float :=
  lines.flatMap stylusWords

theorem strokes_append (lines more : List Gcode) :
    strokes (lines ++ more) = strokes lines ++ strokes more :=
  List.flatMap_append

theorem strokes_cons (line : Gcode) (lines : List Gcode) :
    strokes (line :: lines) = line.stylusWords ++ strokes lines :=
  rfl

end Gcode

open Gcode (strokes strokes_append strokes_cons)

/-- How deep the stylus goes in a step. -/
def Step.depth? (settings : MotionSettings) : Step → Option Float
  | .tap .. => some settings.tapDepth
  | .swipe .. => some settings.swipeDepth
  | .wait _ | .mark | .loop | .load => none

/-- The strokes of a step: out by the depth and back by the same depth. -/
def Step.strokes (settings : MotionSettings) (step : Step) : List Float :=
  (step.depth? settings).elim [] fun depth => [depth, -depth]

/-- The strokes that were made in a step, in order. -/
def Chapter.strokes (chapter : Chapter) : List Float :=
  Gcode.strokes (Entry.lines chapter.entries)

/-- Loading moves other axes, if a script asks for it. -/
def Script.LoadsBeside (script : Script) (axis : Axis) : Prop :=
  .load ∈ script.steps → axis ≠ .e

/-- An operation makes the same strokes wherever the head is. -/
theorem Operation.strokes_legs (settings : MotionSettings) (pose : Pose) (op : Operation) :
    strokes (Leg.allLines (op.legs settings pose)) =
      strokes (Leg.allLines (op.legs settings .origin)) := by
  cases op with
  | load =>
    simp only [legs, Pose.origin, if_true]
    split <;> rfl
  | _ => rfl

/-! ## Turns -/

variable {settings : MotionSettings}

/-- What is left of the strokes `total` of a turn when `sent` has been answered. -/
def TurnState.Spends (settings : MotionSettings) (total : List Float) (sent : List (Gcode × Bool)) :
    TurnState → Prop
  | .busy activity stages =>
    strokes (sent.map Prod.fst) ++ strokes (activity.lines ++ Stage.allLines settings stages) =
      total
  | .over (.ok _) => strokes (sent.map Prod.fst) = total
  | .over (.error _) => True

/-- A command answered before the turn came to this state. -/
theorem TurnState.Spends.answered {state : TurnState} {total : List Float}
    (h : state.Spends settings total []) (line : Gcode) (accepted : Bool) :
    state.Spends settings (line.stylusWords ++ total) [(line, accepted)] := by
  have hline : strokes ([(line, accepted)].map Prod.fst) = line.stylusWords := by
    simp [strokes]
  rcases state with ⟨activity, stages⟩ | (f | text)
  · rw [Spends, hline]
    exact congrArg _ h
  · exact trivial
  · rw [Spends, hline, ← h]
    exact (List.append_nil _).symm

namespace Turn

variable {c : Controller} {now : Nat}

theorem GoesOn.spends {text : String} {legs : List Leg} {stages : List Stage} {state : TurnState}
    (h : GoesOn c now text legs stages state) (hc : c.settings = settings) :
    state.Spends settings (strokes (Leg.allLines legs ++ Stage.allLines settings stages)) [] := by
  induction h with
  | done | asks | homes | sleeps => exact rfl
  | refused => exact trivial
  | @operate _ op _ _ _ ih =>
    rw [strokes_append, op.strokes_legs c.settings c.pose, ← strokes_append, hc] at ih
    exact ih
  | homed _ _ ih | awake _ _ ih => exact ih

/-- **Every event that moves a turn takes off its strokes just those that are made by it.** -/
theorem moved?_spends (hc : c.settings = settings) {turn : Turn} {c' : Controller} {e : Bench.Event}
    {state : TurnState} (moved : turn.moved? c now e = some (c', state)) :
    state.Spends settings (strokes (turn.remaining settings)) (turn.answers e) := by
  have moved := moved_of_moved? moved
  generalize turn.answers e = sent at moved ⊢
  cases moved with
  | due due goes =>
    rw [due.remaining]
    exact goes.spends hc
  | linked asking =>
    rw [remaining_of_asking settings asking]
    exact rfl
  | unlinked | failed => exact trivial
  | @onward work asking _ line rest more =>
    have left : (TurnState.busy (.asking { work with line, rest }) turn.stages).Spends settings
        (strokes (work.rest ++ Leg.allLines work.legs ++ Stage.allLines settings turn.stages))
        [] := by
      rw [more]
      exact rfl
    rw [remaining_of_asking settings asking, Work.lines, List.cons_append, List.cons_append,
      strokes_cons]
    exact left.answered work.line true
  | @legDone work asking _ last _ _ goes =>
    have hc' : (c.track work.track).settings = settings := (c.track_settings _).trans hc
    rw [remaining_of_asking settings asking, Work.lines, last, List.cons_append, List.cons_append,
      strokes_cons]
    exact (goes.spends hc').answered work.line true

end Turn

/-! ## Steps -/

theorem Chapter.strokes_add (chapter : Chapter) (turn : Turn) (now : Nat) (e : Bench.Event) :
    (chapter.add (turn.entries now e)).strokes =
      chapter.strokes ++ Gcode.strokes ((turn.answers e).map Prod.fst) := by
  rw [strokes, add, Entry.lines_append, strokes_append, turn.lines_entries, strokes]

/-- A step that comes to a turn has its strokes among the commands of the turn. -/
theorem Cursor.strokes_of_turn {plan : Plan} (beside : plan.script.LoadsBeside settings.loadAxis)
    {cursor : Cursor} {now : Nat} {step : Step} {stages : List Stage}
    (hstep : step ∈ plan.script.steps) (taken : cursor.take plan now step = .turn stages) :
    strokes (Stage.allLines settings stages) = step.strokes settings := by
  cases take_iff.mp taken with
  | tap | swipe => rfl
  | load =>
    have haxis : settings.loadAxis ≠ .e := beside hstep
    show [(settings.loadAxis, settings.loadPosition)].filterMap
      (fun w => if w.1 = .e then some w.2 else none) ++ [] = []
    simp [haxis]

/-- A step that is done at once makes no strokes. -/
theorem Cursor.strokes_of_done {plan : Plan} {cursor cursor' : Cursor} {now : Nat} {step : Step}
    (taken : cursor.take plan now step = .done cursor') : step.strokes settings = [] := by
  cases take_iff.mp taken <;> rfl

/-- **A step makes its strokes**: those made and those still to be made are one there and one
back. -/
def strokeLaw {plan : Plan} (beside : plan.script.LoadsBeside settings.loadAxis) :
    StepLaw settings plan where
  during _ _ chapter turn :=
    chapter.strokes ++ Gcode.strokes (turn.remaining settings) = chapter.step.strokes settings
  after chapter := chapter.strokes = chapter.step.strokes settings
  opens hstep taken := Cursor.strokes_of_turn beside hstep taken
  instant taken := (Cursor.strokes_of_done taken).symm
  lasts during _ := during
  moves hc during moved := by
    have hspent := Turn.moved?_spends hc moved
    rw [Chapter.strokes_add, List.append_assoc, Turn.remaining]
    exact (congrArg _ hspent).trans during
  closes hc during moved := by
    have hspent : Gcode.strokes _ = _ := Turn.moved?_spends hc moved
    rw [Chapter.strokes_add, hspent]
    exact during

/-! ## Runs -/

/-- **The stylus is up**: in every step that was begun it was taken back as far as it was let
out. -/
structure StylusUp (settings : MotionSettings) (b b' : Bench) (chapters : List Chapter) : Prop where
  /-- whatever is on record for the run since is in a chapter -/
  log : b'.runLog = chapters.flatMap Chapter.entries ++ b.runLog
  /-- nothing of it is still to be answered -/
  settled : ∀ line : Gcode, b'.outstanding? ≠ some (.run, line)
  /-- within each step the words of the stylus are a depth and the same depth back, or there are
  none -/
  paired : ∀ chapter ∈ chapters,
    chapter.strokes = [] ∨ ∃ depth, chapter.step.depth? settings = some depth ∧
      chapter.strokes = [depth, -depth]

theorem Step.strokes_cases (settings : MotionSettings) (step : Step) :
    step.strokes settings = [] ∨ ∃ depth, step.depth? settings = some depth ∧
      step.strokes settings = [depth, -depth] := by
  cases h : step.depth? settings with
  | none => exact .inl (by rw [strokes, h]; rfl)
  | some depth => exact .inr ⟨depth, rfl, by rw [strokes, h]; rfl⟩

namespace Bench

/-- A run that ends without a failure was between two steps, and nothing was answered by that. -/
theorem boundary_of_outcome {b : Bench} (hs : b.Sound) {run : Run} (hr : b.run = some run)
    {e : Event} {outcome : RunOutcome} (ending : b.ending? e = some (.ok outcome)) :
    run.phase = .boundary ∧ b.begins? e = none ∧ b.runEntries e = [] := by
  have hm := runMove hs hr e
  generalize hstep : b.step e = b' at hm
  have goesOn {now : Run} (hr' : b'.run = some now) : False := by
    rw [ending?_eq_none hstep hr'] at ending
    cases ending
  have fails {bench : Bench} {f : Failure} (h : b.step e = bench.endRun (.error f)) : False := by
    rw [ending?_endRun hr h] at ending
    cases ending
  have silent : b.runEntries .decide = [] := runEntries_of_not_moving (moving?_eq_none rfl b)
  cases hm with
  | stays run_eq => exact (goesOn run_eq).elim
  | wakes _ run_eq => exact (goesOn run_eq).elim
  | begins => exact (goesOn (queue_run _ _ _)).elim
  | rests | does | passes => exact (goesOn rfl).elim
  | refused | fails => exact (fails hstep).elim
  | stopped boundary stop => exact ⟨boundary, begins?_of_wish (by simp [stop]), silent⟩
  | completed boundary _ behind => exact ⟨boundary, by simp [begins?, hr, behind], silent⟩

/-- **The stylus is up whenever a run rests.**  Whatever has happened before the request, whatever
is wished for meanwhile, and whatever others ask for: between two steps of the run, and when it has
ended as completed or stopped, each of its steps has taken the stylus back as far as it has let it
out. -/
theorem stylus_raised {settings : MotionSettings} {before : List Event} {r : RunRequest} {b : Bench}
    (accepted : ((fresh settings).steps before).request r = .ok b)
    (beside : r.script.LoadsBeside settings.loadAxis) {events : List Event}
    (goes : b.GoesOn events) :
    (∀ run, (b.steps events).run = some run → run.phase ≠ .working →
        StylusUp settings b (b.steps events) (b.journal events)) ∧
      ∀ (e : Event) (outcome : RunOutcome), (b.steps events).ending? e = some (.ok outcome) →
        StylusUp settings b (b.steps (events ++ [e])) (b.journal (events ++ [e])) := by
  obtain ⟨hs, hc, plan, planned, start⟩ := start_of_accepted accepted
  rw [← plan_script planned] at beside
  obtain ⟨run, kept⟩ := kept_journal (strokeLaw beside) hs hc start goes
  have hnow := hs.steps events
  -- the law says what the strokes are, and these come in pairs
  have paired (hp : run.phase ≠ .working) : ∀ chapter ∈ b.journal events,
      chapter.strokes = [] ∨ ∃ depth, chapter.step.depth? settings = some depth ∧
        chapter.strokes = [depth, -depth] := by
    intro chapter hchapter
    have hlaw : chapter.strokes = chapter.step.strokes settings := kept.between hp chapter hchapter
    rw [hlaw]
    exact chapter.step.strokes_cases settings
  refine ⟨fun run' hr hp => ?_, fun e outcome ending => ?_⟩
  · obtain rfl := Option.some.inj (kept.run_eq.symm.trans hr)
    exact ⟨kept.log, outstanding_of_still hnow hr hp, paired hp⟩
  · obtain ⟨boundary, begins, silent⟩ := boundary_of_outcome hnow kept.run_eq ending
    have hlog := runLog_of_step (b.steps events) e
    rw [silent, List.nil_append] at hlog
    rw [steps_append, journal_append_singleton, inscribe_of_silent begins silent]
    refine ⟨hlog.trans kept.log, fun line ask => ?_, paired (by simp [boundary])⟩
    -- a command of the run waits for an answer only while there is a run
    obtain ⟨now, hr, -⟩ := working_iff.mp (working_of_outstanding (hnow.step_event e) ask)
    rw [ending?_eq_none rfl hr] at ending
    cases ending

/-- The only step of a run is carried out; meanwhile a pause is wished for, and a client asks for a
tap of its own. -/
def throughTap : List Event :=
  [.decide, .proceed, .answer (.ok "ok"), .answer (.ok "ok"), .queue (.client 0) [.operate .tap],
    .pause] ++ List.replicate 5 (.answer (.ok "ok")) ++ [.resume]

theorem stylus_raised_throughTap :
    ∃ (b : Bench) (run : Run), ((fresh {}).steps homing).request tapOnce = .ok b ∧
      tapOnce.script.LoadsBeside (MotionSettings.loadAxis {}) ∧ b.GoesOn throughTap ∧
      (b.steps throughTap).run = some run ∧ run.phase ≠ .working ∧
      StylusUp {} b (b.steps throughTap) (b.journal throughTap) ∧
      (b.steps throughTap).ending? .decide = some (.ok .completed) ∧
      StylusUp {} b (b.steps (throughTap ++ [.decide])) (b.journal (throughTap ++ [.decide])) := by
  have accepted : ((fresh {}).steps homing).request tapOnce =
      .ok (((fresh {}).steps homing).step (.request tapOnce)) := rfl
  have beside : tapOnce.script.LoadsBeside (MotionSettings.loadAxis {}) := fun _ => Axis.noConfusion
  have goes : (((fresh {}).steps homing).step (.request tapOnce)).GoesOn throughTap :=
    ⟨rfl, rfl, rfl, rfl, rfl, rfl, rfl, rfl, rfl, rfl, rfl, rfl, trivial⟩
  obtain ⟨between, atEnd⟩ := stylus_raised accepted beside goes
  exact ⟨_, _, accepted, beside, goes, rfl, Phase.noConfusion, between _ rfl Phase.noConfusion, rfl,
    atEnd .decide .completed rfl⟩

end Bench

end Stylus
