import Stylus.Proofs.Bench.Contact
import Stylus.Proofs.Run.Moves
import Stylus.Proofs.Run.Waiting

/-!
# Wishes are heeded between steps

A run is paused, resumed and stopped by wishes, which may change at any time.  It looks at them only
between its steps.

* `Bench.WishedFor` — a pause or a stop is wished for before each of the events;
* `Bench.StandsStill` — nothing of a run changes, and nothing is sent for it;
* `Account.BeginsNoMore` — no step is begun, and the one under way may end;
* `Bench.HeedsWishes` — what a run makes of the wishes;
* `Bench.wishes_heeded` — every run heeds them, whatever else happens.

A wish for a pause lasts until there is a call to go on, and one for a stop is never taken back; as
long as it lasts the run winds down (`Winding`).  That a run which is to stop does end is a matter
of how long it can be kept waiting.
-/

set_option autoImplicit false

namespace Stylus

/-- No step is begun, the step that `run` is in may end, and the run ends only as stopped or with
the failure of that step. -/
structure Account.BeginsNoMore (a : Account) (run : Run) : Prop where
  begun : a.begun = []
  passed : a.passed <+: run.position?.toList
  ended : ∀ result : Except Failure RunOutcome, a.ended = some result →
    result = .ok .stopped ∨
      ∃ (i : Nat) (f : Failure), run.position? = some i ∧ a.failed = some (i, f) ∧ result = .error f

namespace Bench

/-- A pause or a stop is wished for. -/
def wished (b : Bench) : Bool :=
  b.runner.control.stop || b.runner.control.pause

/-- A pause or a stop is wished for before each of the events. -/
def WishedFor (b : Bench) : List Event → Prop
  | [] => True
  | e :: events => b.wished = true ∧ (b.step e).WishedFor events

/-- What is on record of runs. -/
def runLog (b : Bench) : List Entry :=
  b.log.filter fun entry => entry.owner = .run

/-- The run is where it was between two steps, as everyone is told, and has sent nothing. -/
structure StandsStill (run : Run) (b b' : Bench) : Prop where
  run_eq : ∃ phase : Phase, phase ≠ .working ∧ b'.run = some { run with phase }
  progress : b'.runner.progress = b.runner.progress
  log : b'.runLog = b.runLog
  outstanding : ∀ line : Gcode, b'.outstanding? ≠ some (.run, line)

/-- The run has stopped where it was, and has sent nothing. -/
structure StoppedThere (b b' : Bench) : Prop where
  run_eq : b'.run = none
  report : ∃ earlier : List Report, b'.reports = .run (.ok .stopped) :: earlier
  progress : b'.runner.progress = { b.runner.progress with running := false, lastError := none }
  /-- and with the run its wishes are gone -/
  calm : b'.wished = false
  log : b'.runLog = b.runLog

/-- **What a run makes of the wishes.** -/
structure HeedsWishes (b : Bench) (run : Run) : Prop where
  /-- a pause that is called for is wished for -/
  pause : b.pause.runner.control = { b.runner.control with pause := true }
  /-- a call to go on takes that back, and no more than that -/
  resume : b.resume.runner.control = { b.runner.control with pause := false }
  /-- a stop that is called for is wished for -/
  stop : b.stop.runner.control = { b.runner.control with stop := true }
  /-- and nothing else changes the wishes as long as the run is under way -/
  kept : ∀ e : Event, e.wish? = none → (b.step e).run ≠ none →
    (b.step e).runner.control = b.runner.control
  /-- a step that is under way goes on -/
  inStep : run.phase = .working → ∀ (e : Event) (change : Runner → Runner),
    e.wish? = some change → b.step e = { b with runner := change b.runner }
  /-- while a pause or a stop is wished for, no step begins -/
  wished : ∀ events : List Event, b.WishedFor events → (b.account events).BeginsNoMore run
  /-- between steps nothing changes then, unless the run stops -/
  still : run.phase ≠ .working → ∀ events : List Event, b.WishedFor events →
    StandsStill run b (b.steps events) ∨ StoppedThere b (b.steps events)
  /-- after a call for a pause no step begins until there is one to go on -/
  paused : ∀ later : List Event, .resume ∉ later → (b.pause.account later).BeginsNoMore run
  /-- after a wish for a stop no step begins, whatever is wished for later -/
  stopped : ∀ later : List Event, (b.stop.account later).BeginsNoMore run
  /-- and the run ends when it has been taken further often enough -/
  ends : ∃ n : Nat, ∀ later : List Event, n ≤ b.stop.advancesIn later →
    (b.stop.account later).ended.isSome = true
  /-- which is always possible -/
  goes : ∀ later : List Event, (b.stop.account later).ended = none →
    ∃ (span : Nat) (e : Event),
      e.undisturbed = true ∧ ((b.stop.steps later).step (.pass span)).advances e = true

/-! ## What an event makes of the wishes -/

/-- A wish for a stop is never taken back. -/
theorem Event.wished_stop {r : Runner} (h : r.control.stop = true) (e : Event) :
    (e.wished r).control.stop = true := by
  cases e with
  | stop => rfl
  | _ => exact h

/-- Only a call to go on takes back a wish for a pause. -/
theorem Event.wished_pause {r : Runner} (h : r.control.pause = true) {e : Event}
    (he : e ≠ .resume) : (e.wished r).control.pause = true := by
  cases e with
  | resume => exact absurd rfl he
  | pause => rfl
  | _ => exact h

theorem not_calm {b : Bench} (h : b.wished = true) : b.runner.control ≠ {} := by
  intro calm
  rw [wished, calm] at h
  cases h

/-- While a pause or a stop is wished for, no step begins. -/
theorem begins?_of_wished {b : Bench} (h : b.wished = true) (e : Event) : b.begins? e = none := by
  cases e with
  | decide => exact begins?_of_wish h
  | _ => rfl

/-- Between steps nothing is put on record for the run. -/
theorem runLog_step {b : Bench} (hs : b.Sound) (hw : b.working = false) (e : Event) :
    (b.step e).runLog = b.runLog := by
  have hothers : (b.entries e).filter (fun entry => entry.owner = .run) = [] := by
    refine List.filter_eq_nil_iff.mpr fun entry he => ?_
    cases hb : b.holder with
    | none => simp [entries, hb] at he
    | some turn =>
      have hturn : ¬ isRunTurn turn = true :=
        List.countP_eq_zero.mp (hs.countP_of_not_working hw) turn
          (by rw [line_of_holder hb]; exact List.mem_cons_self)
      rw [Entry.owner_entries hb entry he]
      exact hturn
  rw [runLog, move_log (b.move e), List.filter_append, hothers, List.nil_append, runLog]

theorem outstanding_of_still {b : Bench} (hs : b.Sound) {run : Run} (hr : b.run = some run)
    (hp : run.phase ≠ .working) (line : Gcode) : b.outstanding? ≠ some (.run, line) := by
  intro ask
  have hw := working_of_outstanding hs ask
  rw [Sound.not_working hr hp] at hw
  cases hw

/-! ## Between steps -/

/-- While a pause or a stop is wished for, a run between steps stands still or stops. -/
theorem still_step {b : Bench} {run : Run} (hs : b.Sound) (hr : b.run = some run)
    (hp : run.phase ≠ .working) (hw : b.wished = true) (e : Event) :
    StandsStill run b (b.step e) ∨ StoppedThere b (b.step e) := by
  have hs' := hs.step_event e
  have hlog := runLog_step hs (Sound.not_working hr hp) e
  have hcalm := not_calm hw
  have hbegins := begins?_of_wished hw e
  have hm := runMove hs hr e
  -- the log is known, and so is the run; the rest is read off the move
  have still {phase : Phase} (hphase : phase ≠ .working)
      (hr' : (b.step e).run = some { run with phase })
      (progress : (b.step e).runner.progress = b.runner.progress) :
      StandsStill run b (b.step e) :=
    ⟨⟨phase, hphase, hr'⟩, progress, hlog, outstanding_of_still hs' hr' hphase⟩
  generalize b.step e = b' at hm still hlog
  cases hm with
  | stays run_eq runner =>
    exact .inl (still hp run_eq (by rw [runner, Event.wished_progress]))
  | wakes resting run_eq runner =>
    exact .inl (still (by simp) run_eq (by rw [runner, Event.wished_progress]))
  | rests => exact .inl (still (by simp) rfl rfl)
  | begins begins => rw [begins] at hbegins; cases hbegins
  | does begins => rw [begins] at hbegins; cases hbegins
  | refused begins => rw [begins] at hbegins; cases hbegins
  | passes working => exact absurd working hp
  | fails working => exact absurd working hp
  | stopped => exact .inr ⟨rfl, ⟨_, rfl⟩, rfl, rfl, hlog⟩
  | completed boundary calm => exact absurd calm hcalm

theorem still_steps {b : Bench} {run : Run} (hs : b.Sound) (hr : b.run = some run)
    (hp : run.phase ≠ .working) {events : List Event} (hw : b.WishedFor events) :
    StandsStill run b (b.steps events) ∨ StoppedThere b (b.steps events) := by
  induction events generalizing b run with
  | nil => exact .inl ⟨⟨run.phase, hp, hr⟩, rfl, rfl, outstanding_of_still hs hr hp⟩
  | cons e events ih =>
    obtain ⟨hnow, hlater⟩ := hw
    rw [steps_cons]
    rcases still_step hs hr hp hnow e with h | h
    · obtain ⟨phase, hphase, hr'⟩ := h.run_eq
      rcases ih (hs.step_event e) hr' hphase hlater with h' | h'
      · exact .inl ⟨h'.run_eq, h'.progress.trans h.progress, h'.log.trans h.log, h'.outstanding⟩
      · exact .inr ⟨h'.run_eq, h'.report, by rw [h'.progress, h.progress], h'.calm,
          h'.log.trans h.log⟩
    · -- with the run its wishes are gone, so this was the last event
      cases events with
      | nil => exact .inr h
      | cons e' events =>
        have hcalm := h.calm
        rw [hlater.1] at hcalm
        cases hcalm

/-! ## What is noted while something is wished for -/

/-- **What holds of a run and the account of it while a pause or a stop is wished for.** -/
structure Winding (run : Run) (s : Bench × Account) : Prop where
  sound : s.1.Sound
  noMore : s.2.BeginsNoMore run
  /-- what has passed, and what is under way, was under way at the beginning -/
  underWay : s.2.ended = none → ∃ now : Run, s.1.run = some now ∧
    s.2.passed ++ now.position?.toList <+: run.position?.toList

theorem Winding.start {b : Bench} (hs : b.Sound) {run now : Run} (hr : b.run = some now)
    (position : now.position? = run.position?) : Winding run (b, {}) := by
  refine ⟨hs, ⟨rfl, List.nil_prefix, by rintro _ ⟨⟩⟩, fun _ => ⟨now, hr, ?_⟩⟩
  rw [position]
  exact List.prefix_refl _

namespace Winding

variable {run now : Run} {s : Bench × Account} {e : Event}

/-- An event that is the end of no step, and not of the run. -/
theorem quiet (h : Winding run s) (active : s.2.ended = none) (begins : s.1.begins? e = none)
    (stepEnd : s.1.stepEnd? e = none) {now' : Run} (hr' : (s.1.step e).run = some now')
    (passed : s.2.passed ++ now'.position?.toList <+: run.position?.toList) :
    Winding run (watch s e) := by
  have hnote : s.2.note s.1 e = s.2 := by
    obtain ⟨b, a⟩ := s
    have hending := ending?_eq_none rfl hr'
    cases a
    simp_all [Account.note]
  refine ⟨h.sound.step_event e, ?_, fun _ => ⟨now', hr', ?_⟩⟩
  · rw [watch, hnote]
    exact h.noMore
  · rw [watch, hnote]
    exact passed

/-- An event that does not change what the run is at. -/
theorem same (h : Winding run s) (hr : s.1.run = some now) (active : s.2.ended = none)
    (begins : s.1.begins? e = none) (stepEnd : s.1.stepEnd? e = none) {now' : Run}
    (hr' : (s.1.step e).run = some now') (position : now'.position? = now.position?) :
    Winding run (watch s e) := by
  obtain ⟨_, hr'', passed⟩ := h.underWay active
  obtain rfl := Option.some.inj (hr''.symm.trans hr)
  exact h.quiet active begins stepEnd hr' (position ▸ passed)

/-- A step that is under way is the one that was. -/
theorem inFlight (h : Winding run s) (hr : s.1.run = some now) (active : s.2.ended = none)
    (working : now.phase = .working) :
    s.2.passed = [] ∧ run.position? = some now.cursor.stepIndex := by
  obtain ⟨_, hr', passed⟩ := h.underWay active
  obtain rfl := Option.some.inj (hr'.symm.trans hr)
  rw [Run.position?, if_pos working, Option.toList_some] at passed
  cases hp : run.position? with
  | none => simp [hp] at passed
  | some i =>
    have hlength := passed.length_le
    rw [hp] at passed hlength
    simp only [List.length_append, List.length_singleton, Option.toList_some] at hlength
    have hnil : s.2.passed = [] := List.length_eq_zero_iff.mp (by omega)
    rw [hnil, List.nil_append, Option.toList_some, List.cons_prefix_cons] at passed
    exact ⟨hnil, congrArg some passed.1.symm⟩

/-- An event by which the step under way passes. -/
theorem passes (h : Winding run s) (hr : s.1.run = some now) (active : s.2.ended = none)
    (working : now.phase = .working) (begins : s.1.begins? e = none)
    (stepEnd : s.1.stepEnd? e = some (now.cursor.stepIndex, none)) {now' : Run}
    (hr' : (s.1.step e).run = some now') (boundary : now'.phase = .boundary) :
    Winding run (watch s e) := by
  obtain ⟨hnil, hposition⟩ := h.inFlight hr active working
  have hbegun : (s.2.note s.1 e).begun = [] := by
    simp [Account.note, active, begins, h.noMore.begun]
  have hpassed : (s.2.note s.1 e).passed = [now.cursor.stepIndex] := by
    simp [Account.note, active, stepEnd, hnil]
  have hended : (s.2.note s.1 e).ended = none := by
    simp [Account.note, active, ending?_eq_none rfl hr']
  have hprefix : [now.cursor.stepIndex] <+: run.position?.toList := by
    rw [hposition]
    exact List.prefix_refl _
  refine ⟨h.sound.step_event e, ⟨hbegun, hpassed ▸ hprefix, ?_⟩, fun _ => ⟨now', hr', ?_⟩⟩
  · intro result hresult
    cases hended.symm.trans hresult
  · rw [watch, hpassed, Run.position?, boundary]
    exact hprefix

/-- An event by which the run ends. -/
theorem ends (h : Winding run s) (hr : s.1.run = some now) (active : s.2.ended = none)
    (begins : s.1.begins? e = none) {bench : Bench} {result : Except Failure RunOutcome}
    (step : s.1.step e = bench.endRun result)
    (passed : ∀ i, s.1.stepEnd? e ≠ some (i, none))
    (ended : result = .ok .stopped ∨ ∃ (i : Nat) (f : Failure), run.position? = some i ∧
      s.1.stepEnd? e = some (i, some f) ∧ result = .error f) : Winding run (watch s e) := by
  have hending := ending?_endRun hr step
  have hended : (s.2.note s.1 e).ended = some result := by simp [Account.note, active, hending]
  have hpassed : (s.2.note s.1 e).passed = s.2.passed := by
    cases stepEnd : s.1.stepEnd? e with
    | none => simp [Account.note, active, stepEnd]
    | some stepOver =>
      obtain ⟨i, failure⟩ := stepOver
      cases failure with
      | none => exact absurd stepEnd (passed i)
      | some f => simp [Account.note, active, stepEnd]
  refine ⟨h.sound.step_event e, ⟨?_, ?_, ?_⟩, ?_⟩
  · simp [watch, Account.note, active, begins, h.noMore.begun]
  · rw [watch, hpassed]
    exact h.noMore.passed
  · intro result' hresult
    rw [watch, hended] at hresult
    obtain rfl := Option.some.inj hresult
    rcases ended with rfl | ⟨i, f, hposition, stepEnd, rfl⟩
    · exact .inl rfl
    · exact .inr ⟨i, f, hposition, by simp [watch, Account.note, active, stepEnd], rfl⟩
  · rw [watch, hended]
    rintro ⟨⟩

/-- While a pause or a stop is wished for, the run winds down. -/
theorem event (h : Winding run s) (hw : s.2.ended = none → s.1.wished = true) (e : Event) :
    Winding run (watch s e) := by
  cases active : s.2.ended with
  | some result =>
    have hnote : s.2.note s.1 e = s.2 := by rw [Account.note, active]; rfl
    refine ⟨h.sound.step_event e, ?_, ?_⟩
    · rw [Bench.watch, hnote]
      exact h.noMore
    · rw [Bench.watch, hnote, active]
      rintro ⟨⟩
  | none =>
    obtain ⟨now, hr, -⟩ := h.underWay active
    have hcalm := not_calm (hw active)
    have hbegins := begins?_of_wished (hw active) e
    have hm := runMove h.sound hr e
    generalize hstep : s.1.step e = b' at hm
    cases hm with
    | stays run_eq runner resting undecided begins stepEnd =>
      exact h.same hr active begins stepEnd (hstep ▸ run_eq) rfl
    | wakes resting run_eq runner begins stepEnd =>
      refine h.same hr active begins stepEnd (hstep ▸ run_eq) ?_
      simp [Run.position?, resting]
    | rests boundary =>
      have stepEnd := stepEnd?_of_not_holders rfl hbegins
      refine h.same hr active hbegins stepEnd (by rw [hstep]) ?_
      simp [Run.position?, boundary]
    | begins begins => rw [begins] at hbegins; cases hbegins
    | does begins => rw [begins] at hbegins; cases hbegins
    | refused begins => rw [begins] at hbegins; cases hbegins
    | passes working _ begins stepEnd =>
      exact h.passes hr active working begins stepEnd (by rw [hstep]; rfl) rfl
    | fails working _ begins stepEnd =>
      refine h.ends hr active begins hstep (by simp [stepEnd]) (.inr ⟨_, _, ?_, stepEnd, rfl⟩)
      exact (h.inFlight hr active working).2
    | stopped =>
      have stepEnd := stepEnd?_of_not_holders rfl hbegins
      exact h.ends hr active hbegins hstep (by simp [stepEnd]) (.inl rfl)
    | completed boundary calm => exact absurd calm hcalm

end Winding

theorem Winding.wishedFor {run : Run} {s : Bench × Account} (h : Winding run s)
    {events : List Event} (hw : s.1.WishedFor events) :
    Winding run (events.foldl watch s) := by
  induction events generalizing s with
  | nil => exact h
  | cons e events ih => exact ih (h.event (fun _ => hw.1) e) hw.2

/-- A run winds down if what is wished for lasts as long as the run. -/
theorem Winding.lasting {run : Run} {P : Bench → Prop}
    (hwished : ∀ b : Bench, P b → b.wished = true) {events : List Event}
    (lasts : ∀ e ∈ events, ∀ (b : Bench) (now now' : Run), b.Sound → b.run = some now →
      (b.step e).run = some now' → P b → P (b.step e))
    {s : Bench × Account} (h : Winding run s) (hp : s.2.ended = none → P s.1) :
    Winding run (events.foldl watch s) := by
  induction events generalizing s with
  | nil => exact h
  | cons e events ih =>
    have hevent := h.event (fun active => hwished _ (hp active)) e
    refine ih (fun e' he' => lasts e' (List.mem_cons_of_mem _ he')) hevent fun active' => ?_
    cases active : s.2.ended with
    | some result => simp [watch, Account.note, active] at active'
    | none =>
      obtain ⟨now, hr, -⟩ := h.underWay active
      obtain ⟨now', hr', -⟩ := hevent.underWay active'
      exact lasts e List.mem_cons_self _ now now' h.sound hr hr' (hp active)

/-- After a wish for a pause the run winds down until there is a call to go on. -/
theorem Winding.pausing {run : Run} {s : Bench × Account} (h : Winding run s)
    (hpause : s.1.runner.control.pause = true) {events : List Event} (hon : .resume ∉ events) :
    Winding run (events.foldl watch s) := by
  refine h.lasting (P := (·.runner.control.pause = true)) (fun b hb => ?_)
    (fun e he b now now' hs hr hr' hb => ?_) fun _ => hpause
  · simp [wished, hb]
  · rw [control_of_going hs hr hr']
    exact Event.wished_pause hb fun h => hon (h ▸ he)

/-! ## After a wish for a stop -/

/-- A run that is to stop, and knows. -/
structure Stopping (b : Bench) (run : Run) : Prop where
  sound : b.Sound
  run_eq : b.run = some run
  stop : b.runner.control.stop = true
  awake : ∀ time, run.phase ≠ .resting time

/-- How often a run that is to stop can be taken further before it does. -/
def stopDebt (b : Bench) : Nat :=
  if b.working then b.movesToRun + 1 else 1

theorem Stopping.of_stop {b : Bench} (hs : b.Sound) {run : Run} (hr : b.run = some run) :
    ∃ now : Run, Stopping b.stop now ∧ now.position? = run.position? := by
  obtain ⟨now, hr', runner, position, awake⟩ := run_of_wish hs hr (e := .stop) rfl
  refine ⟨now, ⟨hs.step_event .stop, hr', ?_, awake⟩, position⟩
  exact congrArg (·.control.stop) runner

/-- An event ends a run that is to stop, or brings it nearer to its end. -/
theorem Stopping.step {b : Bench} {run : Run} (h : Stopping b run) (e : Event) :
    (b.ending? e).isSome = true ∨
      (∃ now : Run, Stopping (b.step e) now) ∧
        (b.step e).stopDebt + (b.advances e).toNat ≤ b.stopDebt := by
  have hs' := h.sound.step_event e
  have hcalm : b.runner.control ≠ {} := not_calm (by simp [wished, h.stop])
  have hm := runMove h.sound h.run_eq e
  generalize hstep : b.step e = b' at hs' hm
  cases hm with
  | stays run_eq runner resting undecided =>
    have hstop : b'.runner.control.stop = true := by
      rw [runner]
      exact e.wished_stop h.stop
    refine .inr ⟨⟨run, hs', run_eq, hstop, h.awake⟩, ?_⟩
    cases hp : run.phase with
    | resting time => exact absurd hp (h.awake time)
    | boundary =>
      have he : e ≠ .decide := fun he => undecided he hp
      have hw : b.working = false := Sound.not_working h.run_eq (by simp [hp])
      have hw' : b'.working = false := Sound.not_working run_eq (by simp [hp])
      simp [stopDebt, hw, hw', advances_boundary h.run_eq hp he]
    | working =>
      have hw : b.working = true := working_iff.mpr ⟨run, h.run_eq, hp⟩
      have hw' : b'.working = true := working_iff.mpr ⟨run, run_eq, hp⟩
      have hmoves := movesToRun_move h.sound hw (hstep ▸ b.move e) hw'
      simp only [stopDebt, hw, hw', if_true, advances_working h.run_eq hp]
      omega
  | wakes resting => exact absurd resting (h.awake _)
  | rests boundary stop => rw [h.stop] at stop; cases stop
  | begins begins => exact absurd (begins?_decide.mp begins).2.2.1 hcalm
  | does begins => exact absurd (begins?_decide.mp begins).2.2.1 hcalm
  | refused begins => exact absurd (begins?_decide.mp begins).2.2.1 hcalm
  | @passes _ bench working runner =>
    have hw : b.working = true := working_iff.mpr ⟨run, h.run_eq, working⟩
    have hpos := movesToRun_pos h.sound hw
    have hbound := Bool.toNat_le (b.advances e)
    have hstop : (bench.passStep run run.cursor.advance).runner.control.stop = true := by
      rw [passStep, runner]
      exact h.stop
    refine .inr ⟨⟨_, hs', rfl, hstop, by simp⟩, ?_⟩
    have hw' : (bench.passStep run run.cursor.advance).working = false := rfl
    simp only [stopDebt, hw, hw', if_true, Bool.false_eq_true, if_false]
    omega
  | fails => exact .inl (by rw [ending?_endRun h.run_eq hstep]; rfl)
  | stopped => exact .inl (by rw [ending?_endRun h.run_eq hstep]; rfl)
  | completed _ calm => exact absurd calm hcalm

/-- A run that is to stop winds down whatever happens. -/
theorem Winding.stopping {run : Run} {s : Bench × Account} (h : Winding run s)
    (hstop : s.1.runner.control.stop = true) (events : List Event) :
    Winding run (events.foldl Bench.watch s) := by
  refine h.lasting (P := (·.runner.control.stop = true)) (fun b hb => ?_)
    (fun e he b now now' hs hr hr' hb => ?_) fun _ => hstop
  · simp [wished, hb]
  · rw [control_of_going hs hr hr']
    exact e.wished_stop hb

/-! ## Every run -/

/-- **Every run heeds the wishes.**  Whatever has led to it, and whatever else happens while
something is wished for. -/
theorem wishes_heeded {settings : MotionSettings} {before : List Event} {run : Run}
    (hr : ((fresh settings).steps before).run = some run) :
    HeedsWishes ((fresh settings).steps before) run := by
  have hs := (Sound.of_fresh settings).steps before
  generalize (fresh settings).steps before = b at *
  obtain ⟨now, hstopping, position⟩ := Stopping.of_stop hs hr
  have hwinding : Winding run (b.stop, {}) := .start hstopping.sound hstopping.run_eq position
  have hcalls {e : Event} {change : Runner → Runner} (wish : e.wish? = some change) :
      (b.step e).runner.control = (change b.runner).control := by
    obtain ⟨_, -, runner, -⟩ := run_of_wish hs hr wish
    exact congrArg Runner.control runner
  refine ⟨hcalls (e := .pause) rfl, hcalls (e := .resume) rfl, hcalls (e := .stop) rfl, ?_, ?_, ?_,
    fun hp events hw => still_steps hs hr hp hw, ?_, ?_, ?_, ?_⟩
  · intro e wish going
    obtain ⟨now', hr'⟩ := Option.ne_none_iff_exists'.mp going
    rw [control_of_going hs hr hr', Event.wished, wish]
  · intro working e change wish
    simp only [step_of_wish wish, control, wakeRun, hr, working]
  · intro events hw
    exact ((Winding.start hs hr rfl).wishedFor hw).noMore
  · intro later hon
    obtain ⟨now', hr', runner, position', -⟩ := run_of_wish hs hr (e := .pause) rfl
    have hpaused : Winding run (b.pause, {}) := .start (hs.step_event .pause) hr' position'
    exact (hpaused.pausing (congrArg (·.control.pause) runner) hon).noMore
  · intro later
    exact (hwinding.stopping hstopping.stop later).noMore
  · refine ⟨b.stop.stopDebt, fun later enough => ?_⟩
    refine ended_of_advances (fun b => ∃ now : Run, Stopping b now) stopDebt
      (fun _ => True) ?_ ?_ ⟨now, hstopping⟩ (fun _ _ => trivial) enough {}
    · rintro b e - ⟨now, hnow⟩
      exact hnow.step e
    · rintro b -
      rw [stopDebt]
      split <;> omega
  · intro later active
    obtain ⟨run', hr', -⟩ := (hwinding.stopping hstopping.stop later).underWay active
    rw [foldl_watch_fst] at hr'
    exact exists_advance (hstopping.sound.steps later) hr'

/-- The only step of a run is under way. -/
def inTap : List Event :=
  beforeTap ++ [.decide, .proceed]

/-- It is told to stop, and then other things, and the step is done. -/
def afterStop : List Event :=
  .resume :: .pause :: (List.replicate 7 (.answer (.ok "ok")) ++ [.decide])

theorem wishes_heeded_inTap :
    ∃ run : Run, ((fresh {}).steps inTap).run = some run ∧ run.phase = .working ∧
      HeedsWishes ((fresh {}).steps inTap) run ∧
      (((fresh {}).steps inTap).stop.account afterStop).ended = some (.ok .stopped) := by
  have hr : ((fresh {}).steps inTap).run = some _ := rfl
  exact ⟨_, hr, rfl, wishes_heeded hr, rfl⟩

end Bench

end Stylus
