import Stylus.Proofs.Bench.Contact
import Stylus.Proofs.Run.Wishes

/-!
# A run told step by step

An account of a run says which steps it carries out.  Its journal says what each of them sends: a
step that begins opens a chapter, and what the plotter answers to the run is entered in the last
one.

* `Bench.journal` — the chapters of a run along a sequence of events;
* `Bench.GoesOn` — the run does not end by any of the events;
* `Chapter.due?` — when the wait that was carried out last is over;
* `StepLaw` — what holds of a step while it is under way, and what of it when it has passed;
* `Kept.tell` — **a law that every single turn keeps holds of all steps of a run**, whatever others
  ask for meanwhile;
* `Bench.kept_journal` — along every sequence of events by which the run does not end.

The invariant `Kept` also says that the journal leaves nothing out, and that the cursor waits for
the wait that was carried out last.
-/

set_option autoImplicit false

namespace Stylus

/-! ## The journal -/

/-- What is noted of a step of a run. -/
structure Chapter where
  /-- when the step began -/
  began : Nat
  step : Step
  /-- its commands that were answered, the last one first -/
  entries : List Entry := []

namespace Chapter

/-- The chapter with what was answered since. -/
def add (chapter : Chapter) (entries : List Entry) : Chapter :=
  { chapter with entries := entries ++ chapter.entries }

/-- When the wait that was carried out last is over; the last chapter comes first. -/
def due? : List Chapter → Option Nat
  | [] => none
  | chapter :: earlier =>
    match chapter.step with
    | .wait spec => (TimeSpec.milliseconds spec).toOption.map (chapter.began + ·)
    | _ => due? earlier

theorem due?_cons_of_ne_wait {chapter : Chapter} (h : ∀ spec, chapter.step ≠ .wait spec)
    (earlier : List Chapter) : due? (chapter :: earlier) = due? earlier := by
  rw [due?]
  split
  · rename_i spec hspec
    exact absurd hspec (h spec)
  · rfl

/-- Without a wait nothing is waited for. -/
theorem due?_eq_none {chapters : List Chapter}
    (h : ∀ chapter ∈ chapters, ∀ spec, chapter.step ≠ .wait spec) : due? chapters = none := by
  induction chapters with
  | nil => rfl
  | cons chapter earlier ih =>
    obtain ⟨hchapter, hearlier⟩ := List.forall_mem_cons.mp h
    rw [due?_cons_of_ne_wait hchapter, ih hearlier]

end Chapter

/-- What a turn puts on record by an event. -/
def Turn.entries (turn : Turn) (now : Nat) (e : Bench.Event) : List Entry :=
  (turn.answers e).map fun s => ⟨now, turn.owner, s.1, s.2⟩

theorem Turn.lines_entries (turn : Turn) (now : Nat) (e : Bench.Event) :
    Entry.lines (turn.entries now e) = (turn.answers e).map Prod.fst := by
  rw [entries]
  rcases turn.answers_cases e with h | ⟨s, h⟩ <;> rw [h] <;> rfl

namespace Bench

/-- What an event puts on record for the run. -/
def runEntries (b : Bench) (e : Event) : List Entry :=
  (b.entries e).filter fun entry => entry.owner = .run

/-- The journal after an event. -/
def inscribe (b : Bench) (e : Event) (chapters : List Chapter) : List Chapter :=
  match b.begins? e, chapters with
  | some (_, step), chapters => ⟨b.now, step, []⟩ :: chapters
  | none, [] => []
  | none, chapter :: earlier => chapter.add (b.runEntries e) :: earlier

/-- An event, told in the journal. -/
def tell (s : Bench × List Chapter) (e : Event) : Bench × List Chapter :=
  (s.1.step e, s.1.inscribe e s.2)

/-- The chapters of the run under way, the last one first. -/
def journal (b : Bench) (events : List Event) : List Chapter :=
  (events.foldl tell (b, [])).2

/-- The run does not end by any of the events. -/
def GoesOn (b : Bench) : List Event → Prop
  | [] => True
  | e :: events => b.ending? e = none ∧ (b.step e).GoesOn events

theorem foldl_tell_fst (s : Bench × List Chapter) (events : List Event) :
    (events.foldl tell s).1 = s.1.steps events := by
  induction events generalizing s with
  | nil => rfl
  | cons e events ih => exact ih (tell s e)

theorem journal_append_singleton (b : Bench) (events : List Event) (e : Event) :
    b.journal (events ++ [e]) = (b.steps events).inscribe e (b.journal events) := by
  rw [journal, List.foldl_append, List.foldl_cons, List.foldl_nil, tell, foldl_tell_fst, ← journal]

/-! ## What an event enters -/

theorem queue_now (b : Bench) (owner : Owner) (stages : List Stage) :
    (b.queue owner stages).now = b.now := by
  obtain ⟨holder, waiting, h⟩ := b.queue_frame owner stages
  rw [h]

theorem entries_of_turn {b : Bench} {turn : Turn} (h : b.holder = some turn) (e : Event) :
    b.entries e = turn.entries b.now e :=
  entries_of_holder h e

theorem runEntries_of_run {b : Bench} {turn : Turn} (hb : b.holder = some turn)
    (ho : turn.owner = .run) (e : Event) : b.runEntries e = turn.entries b.now e := by
  rw [runEntries, entries_of_turn hb, List.filter_eq_self]
  intro entry he
  obtain ⟨s, -, rfl⟩ := List.mem_map.mp he
  exact decide_eq_true ho

theorem runEntries_of_guest {b : Bench} {turn : Turn} (hb : b.holder = some turn)
    (ho : turn.owner ≠ .run) (e : Event) : b.runEntries e = [] := by
  rw [runEntries, List.filter_eq_nil_iff]
  intro entry he
  rw [Entry.owner_entries hb entry he, decide_eq_true_eq]
  exact ho

theorem runEntries_of_not_moving {b : Bench} {e : Event} (h : b.moving? e = none) :
    b.runEntries e = [] := by
  rw [runEntries, entries_of_not_moving h, List.filter_nil]

theorem runLog_of_step (b : Bench) (e : Event) :
    (b.step e).runLog = b.runEntries e ++ b.runLog := by
  rw [runLog, move_log (b.move e), List.filter_append, ← runEntries, ← runLog]

theorem inscribe_of_begins {b : Bench} {e : Event} {run : Run} {step : Step}
    (h : b.begins? e = some (run, step)) (chapters : List Chapter) :
    b.inscribe e chapters = ⟨b.now, step, []⟩ :: chapters := by
  simp only [inscribe, h]

theorem inscribe_cons {b : Bench} {e : Event} (h : b.begins? e = none) (chapter : Chapter)
    (earlier : List Chapter) :
    b.inscribe e (chapter :: earlier) = chapter.add (b.runEntries e) :: earlier := by
  simp only [inscribe, h]

/-- An event that begins no step, and by which nothing is answered to the run, does not show. -/
theorem inscribe_of_silent {b : Bench} {e : Event} (begins : b.begins? e = none)
    (silent : b.runEntries e = []) (chapters : List Chapter) :
    b.inscribe e chapters = chapters := by
  cases chapters with
  | nil => simp only [inscribe, begins]
  | cons chapter earlier => rw [inscribe_cons begins, silent, Chapter.add, List.nil_append]

end Bench

/-! ## Laws -/

/-- **What holds of a step while it is under way, and what when it has passed**, as far as its turn
can tell: of the deadline of the cursor, the time, what is noted of the step, and its turn. -/
structure StepLaw (settings : MotionSettings) (plan : Plan) where
  during : Option Nat → Nat → Chapter → Turn → Prop
  after : Chapter → Prop
  /-- it holds when the step begins -/
  opens : ∀ {cursor : Cursor} {now : Nat} {step : Step} {stages : List Stage},
    step ∈ plan.script.steps → cursor.take plan now step = .turn stages →
      during cursor.deadline now ⟨now, step, []⟩ ⟨.run, .ready, stages⟩
  /-- it holds of a step that is done at once -/
  instant : ∀ {cursor cursor' : Cursor} {now : Nat} {step : Step},
    cursor.take plan now step = .done cursor' → after ⟨now, step, []⟩
  /-- time does not change it -/
  lasts : ∀ {deadline : Option Nat} {now later : Nat} {chapter : Chapter} {turn : Turn},
    during deadline now chapter turn → now ≤ later → during deadline later chapter turn
  /-- nor does an event that takes the turn further -/
  moves : ∀ {deadline : Option Nat} {now : Nat} {chapter : Chapter} {turn : Turn}
    {c c' : Controller} {e : Bench.Event} {activity : Activity} {stages : List Stage},
    c.settings = settings →
      during deadline now chapter turn → turn.moved? c now e = some (c', .busy activity stages) →
        during deadline now (chapter.add (turn.entries now e)) { turn with activity, stages }
  /-- it holds when the turn is over -/
  closes : ∀ {deadline : Option Nat} {now : Nat} {chapter : Chapter} {turn : Turn}
    {c c' : Controller} {e : Bench.Event} {text : String},
    c.settings = settings → during deadline now chapter turn →
      turn.moved? c now e = some (c', .over (.ok text)) → after (chapter.add (turn.entries now e))

variable {settings : MotionSettings} {plan : Plan} {law : StepLaw settings plan} {base : List Entry}
  {s : Bench × List Chapter} {run run' : Run} {e : Bench.Event} {b' : Bench}

/-- What holds of the step under way, by its turn and the last chapter. -/
structure Midway (law : StepLaw settings plan) (s : Bench × List Chapter) (run : Run)
    (chapter : Chapter) (earlier : List Chapter) (turn : Turn) : Prop where
  chapters : s.2 = chapter :: earlier
  step : plan.script.steps[run.cursor.stepIndex]? = some chapter.step
  line : turn ∈ s.1.line
  owner : turn.owner = .run
  during : law.during run.cursor.deadline s.1.now chapter turn
  earlier : ∀ c ∈ earlier, law.after c

/-- **What holds of a run under way and its journal**, if every step keeps the law. -/
structure Kept (law : StepLaw settings plan) (base : List Entry) (s : Bench × List Chapter)
    (run : Run) : Prop where
  run_eq : s.1.run = some run
  plan_eq : run.plan = plan
  /-- the cursor waits for the wait that was carried out last -/
  deadline : run.cursor.deadline = Chapter.due? s.2
  /-- the journal leaves nothing out -/
  log : s.1.runLog = s.2.flatMap Chapter.entries ++ base
  between : run.phase ≠ .working → ∀ chapter ∈ s.2, law.after chapter
  within : run.phase = .working → ∃ chapter earlier turn, Midway law s run chapter earlier turn

/-- A step that comes to a turn is no wait. -/
theorem Cursor.ne_wait_of_turn {cursor : Cursor} {now : Nat} {step : Step} {stages : List Stage}
    (taken : cursor.take plan now step = .turn stages) (spec : String) : step ≠ .wait spec := by
  rintro rfl
  cases take_iff.mp taken

/-- A step that is done at once sets the deadline if it is a wait, and else leaves it. -/
theorem Cursor.deadline_of_done {cursor cursor' : Cursor} {now : Nat} {step : Step}
    (taken : cursor.take plan now step = .done cursor') {earlier : List Chapter}
    (h : cursor.deadline = Chapter.due? earlier) :
    cursor'.deadline = Chapter.due? (⟨now, step, []⟩ :: earlier) := by
  cases take_iff.mp taken with
  | wait understood ahead =>
    have hahead := (Option.ite_none_right_eq_some.mp ahead).2
    simp only [Chapter.due?, understood, Except.toOption, Option.map_some]
    exact hahead.symm
  | mark => exact h
  | again => exact h
  | through => exact h

namespace Kept

/-- Of the turns in the line only one belongs to the run. -/
theorem holder {chapter : Chapter} {earlier : List Chapter} {turn t : Turn} (hs : s.1.Sound)
    (hw : Midway law s run chapter earlier turn) (hb : s.1.holder = some t) (ho : t.owner = .run) :
    t = turn := by
  obtain ⟨-, hcount⟩ := hs.holder_run hb ho
  have hline := hw.line
  rw [Bench.line_of_holder hb, List.mem_cons] at hline
  rcases hline with rfl | hwaits
  · rfl
  · exact absurd (by simp [Bench.isRunTurn, hw.owner]) (List.countP_eq_zero.mp hcount turn hwaits)

/-- An event that concerns neither the steps of the run nor its turn. -/
theorem quiet (h : Kept law base s run) (step : s.1.step e = b') (run_eq : b'.run = some run')
    (plan_eq : run'.plan = run.plan) (cursor : run'.cursor = run.cursor)
    (phase : run'.phase = .working ↔ run.phase = .working) (now : s.1.now ≤ b'.now)
    (line : ∀ turn ∈ s.1.line, turn.owner = .run → turn ∈ b'.line) (begins : s.1.begins? e = none)
    (silent : s.1.runEntries e = []) : Kept law base (Bench.tell s e) run' := by
  have htell : Bench.tell s e = (b', s.2) := by
    rw [Bench.tell, step, Bench.inscribe_of_silent begins silent]
  have hlog : b'.runLog = s.1.runLog := by
    rw [← step, Bench.runLog_of_step, silent, List.nil_append]
  rw [htell]
  refine ⟨run_eq, plan_eq.trans h.plan_eq, cursor ▸ h.deadline, hlog.trans h.log, ?_, ?_⟩
  · exact fun hp => h.between (fun hw => hp (phase.mpr hw))
  · intro hp
    obtain ⟨chapter, earlier, turn, hw⟩ := h.within (phase.mp hp)
    exact ⟨chapter, earlier, turn, hw.chapters, cursor ▸ hw.step, line turn hw.line hw.owner,
      hw.owner, cursor ▸ law.lasts hw.during now, hw.earlier⟩

/-- An event that moves the turn of the step under way: what is answered is entered in its
chapter. -/
theorem own (h : Kept law base s run) (hs : s.1.Sound) {turn : Turn} {c : Controller}
    {state : TurnState} (moving : s.1.moving? e = some (turn, c, state)) (ho : turn.owner = .run) :
    ∃ chapter earlier, Midway law s run chapter earlier turn ∧
      s.1.inscribe e s.2 = chapter.add (turn.entries s.1.now e) :: earlier ∧
      (s.1.step e).runLog =
        (chapter.add (turn.entries s.1.now e) :: earlier).flatMap Chapter.entries ++ base ∧
      run.cursor.deadline = Chapter.due? (chapter.add (turn.entries s.1.now e) :: earlier) := by
  have hb := (Bench.moving?_eq_some.mp moving).1
  obtain ⟨⟨_, hr, working⟩, -⟩ := hs.holder_run hb ho
  obtain rfl := Option.some.inj (h.run_eq.symm.trans hr)
  obtain ⟨chapter, earlier, t, hw⟩ := h.within working
  obtain rfl := holder hs hw hb ho
  have hentries := Bench.runEntries_of_run hb ho e
  have hstep : ∀ spec, chapter.step ≠ .wait spec := by
    obtain ⟨now, step, stages, hstep, taken⟩ := hs.step run h.run_eq working
    rw [h.plan_eq] at hstep taken
    obtain rfl := Option.some.inj (hstep.symm.trans hw.step)
    exact Cursor.ne_wait_of_turn taken
  refine ⟨chapter, earlier, hw, ?_, ?_, ?_⟩
  · rw [hw.chapters, Bench.inscribe_cons (Bench.begins?_of_moving moving), hentries]
  · rw [Bench.runLog_of_step, hentries, h.log, hw.chapters]
    simp [Chapter.add]
  · have hadd : ∀ spec, (chapter.add (turn.entries s.1.now e)).step ≠ .wait spec := hstep
    rw [h.deadline, hw.chapters, Chapter.due?_cons_of_ne_wait hstep,
      Chapter.due?_cons_of_ne_wait hadd]

/-- The turn of the step under way goes on. -/
theorem busy (h : Kept law base s run) (hs : s.1.Sound) (hc : s.1.controller.settings = settings)
    {turn : Turn} {c : Controller} {activity : Activity} {stages : List Stage}
    (moving : s.1.moving? e = some (turn, c, .busy activity stages)) (ho : turn.owner = .run)
    (step : s.1.step e = b') (b'_eq : b' = { s.1 with
      log := s.1.entries e ++ s.1.log
      controller := c
      holder := some { turn with activity, stages } }) : Kept law base (Bench.tell s e) run := by
  obtain ⟨hb, hmoved⟩ := Bench.moving?_eq_some.mp moving
  obtain ⟨⟨_, hr, working⟩, -⟩ := hs.holder_run hb ho
  obtain rfl := Option.some.inj (h.run_eq.symm.trans hr)
  obtain ⟨chapter, earlier, hw, hinscribe, hlog, hdeadline⟩ := h.own hs moving ho
  rw [Bench.tell, hinscribe]
  refine ⟨?_, h.plan_eq, hdeadline, hlog, fun hp => absurd working hp, fun _ => ?_⟩
  · rw [step, b'_eq]
    exact h.run_eq
  · refine ⟨_, earlier, { turn with activity, stages }, rfl, hw.step, ?_, ho, ?_, hw.earlier⟩
    · rw [step, b'_eq]
      exact List.mem_cons_self
    · rw [step, b'_eq]
      exact law.moves hc hw.during hmoved

/-- The turn of the step under way is over, and the step passes. -/
theorem passes (h : Kept law base s run) (hs : s.1.Sound) (hc : s.1.controller.settings = settings)
    {turn : Turn} {c : Controller} {text : String}
    (moving : s.1.moving? e = some (turn, c, .over (.ok text))) (ho : turn.owner = .run)
    (run_eq : (s.1.step e).run =
      some { run with cursor := run.cursor.advance, phase := .boundary }) :
    Kept law base (Bench.tell s e)
      { run with cursor := run.cursor.advance, phase := .boundary } := by
  obtain ⟨chapter, earlier, hw, hinscribe, hlog, hdeadline⟩ := h.own hs moving ho
  rw [Bench.tell, hinscribe]
  refine ⟨run_eq, h.plan_eq, hdeadline, hlog, fun _ => ?_, fun hp => by cases hp⟩
  have hmoved := (Bench.moving?_eq_some.mp moving).2
  exact List.forall_mem_cons.mpr ⟨law.closes hc hw.during hmoved, hw.earlier⟩

/-- A step begins that needs the controller. -/
theorem begins (h : Kept law base s run) (hs : s.1.Sound) {step : Step} {stages : List Stage}
    (begins : s.1.begins? .decide = some (run, step))
    (taken : run.cursor.take run.plan s.1.now step = .turn stages)
    (moved : s.1.step .decide =
      Bench.queue { s.1 with run := some { run with phase := .working } } .run stages) :
    Kept law base (Bench.tell s .decide) { run with phase := .working } := by
  obtain ⟨-, boundary, -, hstep⟩ := Bench.begins?_decide.mp begins
  rw [h.plan_eq] at hstep taken
  have hlog := Bench.runLog_of_step s.1 .decide
  rw [Bench.runEntries_of_not_moving (Bench.moving?_eq_none rfl _), List.nil_append, h.log] at hlog
  rw [Bench.tell, Bench.inscribe_of_begins begins]
  refine ⟨?_, h.plan_eq, ?_, hlog, fun hp => absurd rfl hp, fun _ => ?_⟩
  · rw [moved, Bench.queue_run]
  · rw [Chapter.due?_cons_of_ne_wait (Cursor.ne_wait_of_turn taken)]
    exact h.deadline
  · have hearlier := h.between (by rw [boundary]; exact Phase.noConfusion)
    refine ⟨_, s.2, ⟨.run, .ready, stages⟩, rfl, hstep, ?_, rfl, ?_, hearlier⟩
    · rw [moved, Bench.line_queue (b := { s.1 with run := some { run with phase := .working } })
        hs.free]
      exact List.mem_append_right _ (List.mem_singleton_self _)
    · rw [moved, Bench.queue_now]
      exact law.opens (List.mem_of_getElem? hstep) taken

/-- A step is done that needs nothing. -/
theorem does (h : Kept law base s run) {step : Step} {cursor : Cursor}
    (begins : s.1.begins? .decide = some (run, step))
    (taken : run.cursor.take run.plan s.1.now step = .done cursor)
    (moved : s.1.step .decide = s.1.passStep run cursor) :
    Kept law base (Bench.tell s .decide) { run with cursor, phase := .boundary } := by
  obtain ⟨-, boundary, -, -⟩ := Bench.begins?_decide.mp begins
  have hlog := Bench.runLog_of_step s.1 .decide
  rw [Bench.runEntries_of_not_moving (Bench.moving?_eq_none rfl _), List.nil_append, h.log] at hlog
  rw [Bench.tell, Bench.inscribe_of_begins begins]
  refine ⟨by rw [moved]; rfl, h.plan_eq, Cursor.deadline_of_done taken h.deadline, hlog,
    fun _ => ?_, fun hp => by cases hp⟩
  rw [h.plan_eq] at taken
  exact List.forall_mem_cons.mpr
    ⟨law.instant taken, h.between (by rw [boundary]; exact Phase.noConfusion)⟩

/-- **Every event by which the run does not end keeps the law.** -/
theorem tell (h : Kept law base s run) (hs : s.1.Sound) (hc : s.1.controller.settings = settings)
    (goes : s.1.ending? e = none) : ∃ run', Kept law base (Bench.tell s e) run' := by
  have hr := h.run_eq
  have hends {bench : Bench} {result : Except Failure RunOutcome}
      (step : s.1.step e = bench.endRun result) : False := by
    rw [Bench.ending?_endRun hr step] at goes
    cases goes
  have hm := s.1.move e
  generalize step : s.1.step e = b' at hm
  cases hm with
  | idle begins moving =>
    exact ⟨run, h.quiet step hr rfl rfl Iff.rfl (Nat.le_refl _) (fun _ ht _ => ht) begins
      (Bench.runEntries_of_not_moving moving)⟩
  | pass span =>
    exact ⟨run, h.quiet step hr rfl rfl Iff.rfl (Nat.le_add_right _ _) (fun _ ht _ => ht) rfl
      (Bench.runEntries_of_not_moving (Bench.moving?_eq_none rfl _))⟩
  | start accepted idle =>
    rw [hs.running, hr] at idle
    cases idle
  | @wish _ change wish =>
    obtain ⟨holders, decide⟩ := Bench.Event.not_holders_of_wish wish
    obtain ⟨phase, hwake, hiff⟩ :=
      Bench.wakeRun_eq (b := { s.1 with runner := change s.1.runner }) hr
    rw [Bench.control, hwake] at step
    exact ⟨_, h.quiet step rfl rfl rfl hiff (Nat.le_refl _) (fun _ ht _ => ht)
      (Bench.begins?_of_ne_decide decide)
      (Bench.runEntries_of_not_moving (Bench.moving?_eq_none holders _))⟩
  | poll =>
    obtain ⟨phase, hwake, hiff⟩ := Bench.wakeRun_eq hr
    rw [hwake] at step
    exact ⟨_, h.quiet step rfl rfl rfl hiff (Nat.le_refl _) (fun _ ht _ => ht) rfl
      (Bench.runEntries_of_not_moving (Bench.moving?_eq_none rfl _))⟩
  | queue guest stages =>
    refine ⟨run, h.quiet step (by simpa using hr) rfl rfl Iff.rfl
      (Nat.le_of_eq (Bench.queue_now _ _ _).symm) ?_ rfl
      (Bench.runEntries_of_not_moving (Bench.moving?_eq_none rfl _))⟩
    intro turn ht _
    rw [Bench.line_queue hs.free]
    exact List.mem_append_left _ ht
  | withdraw guest =>
    exact ⟨run, h.quiet step hr rfl rfl Iff.rfl (Nat.le_refl _)
      (fun _ => Bench.mem_line_withdraw guest) rfl
      (Bench.runEntries_of_not_moving (Bench.moving?_eq_none rfl _))⟩
  | @busy _ turn c activity stages moving =>
    by_cases ho : turn.owner = .run
    · exact ⟨run, h.busy hs hc moving ho step rfl⟩
    · have hb := (Bench.moving?_eq_some.mp moving).1
      refine ⟨run, h.quiet step hr rfl rfl Iff.rfl (Nat.le_refl _) ?_
        (Bench.begins?_of_moving moving) (Bench.runEntries_of_guest hb ho e)⟩
      intro t ht hto
      rw [Bench.line_of_holder hb, List.mem_cons] at ht
      rcases ht with rfl | ht
      · exact absurd hto ho
      · exact List.mem_cons_of_mem _ ht
  | @finish _ turn c result moving =>
    have hb := (Bench.moving?_eq_some.mp moving).1
    by_cases ho : turn.owner = .run
    · have hr' : Bench.run { s.1 with log := s.1.entries e ++ s.1.log, controller := c } =
        some run := hr
      cases result with
      | ok text =>
        rw [ho, Bench.turnOver_run_ok hr'] at step
        exact ⟨_, h.passes hs hc moving ho (by rw [step]; rfl)⟩
      | error f =>
        rw [ho, Bench.turnOver_run_error hr'] at step
        exact (hends step).elim
    · refine ⟨run, h.quiet step ?_ rfl rfl Iff.rfl ?_ ?_ (Bench.begins?_of_moving moving)
        (Bench.runEntries_of_guest hb ho e)⟩
      · rw [Bench.turnOver_guest ho, Bench.handOn_eq]
        exact hr
      · exact Nat.le_of_eq (by rw [Bench.turnOver_guest ho, Bench.handOn_eq])
      · intro t ht hto
        rw [Bench.line_turnOver]
        rw [Bench.line_of_holder hb, List.mem_cons] at ht
        rcases ht with rfl | ht
        · exact absurd hto ho
        · exact ht
  | stopped => exact (hends step).elim
  | completed => exact (hends step).elim
  | takeFailed => exact (hends step).elim
  | @rest run' run_eq boundary pause begins =>
    obtain rfl := Option.some.inj (hr.symm.trans run_eq)
    refine ⟨_, h.quiet step rfl rfl rfl ?_ (Nat.le_refl _) (fun _ ht _ => ht) begins
      (Bench.runEntries_of_not_moving (Bench.moving?_eq_none rfl _))⟩
    simp [boundary]
  | @takeTurn run' x stages begins taken =>
    obtain rfl := Option.some.inj (hr.symm.trans (Bench.begins?_decide.mp begins).1)
    exact ⟨_, h.begins hs begins taken step⟩
  | @takeDone run' x cursor begins taken =>
    obtain rfl := Option.some.inj (hr.symm.trans (Bench.begins?_decide.mp begins).1)
    exact ⟨_, h.does begins taken step⟩

end Kept

/-! ## Runs -/

namespace Bench

variable {b : Bench} {events : List Event}

/-- What a bench is on which a request was accepted. -/
theorem start_of_accepted {before : List Event} {r : RunRequest}
    (accepted : ((fresh settings).steps before).request r = .ok b) :
    b.Sound ∧ b.controller.settings = settings ∧
      ∃ plan, r.plan = .ok plan ∧ ((fresh settings).steps before).start plan = .ok b := by
  have hs := (Sound.of_fresh settings).steps before
  have hstep : ((fresh settings).steps before).step (.request r) = b := by
    simp only [step, accepted]
  refine ⟨hs.request accepted, ?_, ?_⟩
  · rw [← hstep]
    exact (move_settings (move _ _)).trans (steps_settings _ before)
  · cases planned : r.plan with
    | error f =>
      rw [request_of_fault planned] at accepted
      cases accepted
    | ok plan => exact ⟨plan, rfl, (request_of_plan planned).symm.trans accepted⟩

/-- A run that has just begun has no chapters. -/
theorem kept_start (law : StepLaw settings plan) (start : b.start plan = .ok b') :
    ∃ run, Kept law b'.runLog (b', []) run := by
  rw [Bench.start] at start
  split at start
  · cases start
  · cases start
    exact ⟨_, rfl, rfl, rfl, rfl, by simp, fun hp => by cases hp⟩

theorem kept_foldl (h : ∃ run, Kept law base s run) (hs : s.1.Sound)
    (hc : s.1.controller.settings = settings) (goes : s.1.GoesOn events) :
    ∃ run, Kept law base (events.foldl tell s) run := by
  induction events generalizing s with
  | nil => exact h
  | cons e events ih =>
    obtain ⟨run, h⟩ := h
    exact ih (h.tell hs hc goes.1) (hs.step_event e) ((move_settings (s.1.move e)).trans hc) goes.2

/-- **Along every sequence of events by which a run does not end, all its steps keep the law.** -/
theorem kept_journal (law : StepLaw settings plan) (hs : b'.Sound)
    (hc : b'.controller.settings = settings) (start : b.start plan = .ok b')
    (goes : b'.GoesOn events) :
    ∃ run, Kept law b'.runLog (b'.steps events, b'.journal events) run := by
  have hkept := kept_foldl (kept_start law start) hs hc goes
  have hsteps := foldl_tell_fst (b', []) events
  rw [journal, ← hsteps]
  exact hkept

end Bench

end Stylus
