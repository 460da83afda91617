import Stylus.Proofs.Bench.Sound
import Stylus.Proofs.Bench.Turns
import Stylus.Proofs.Run.Taking

/-!
# Contacts are made where they belong

A tap or a swipe is one turn at the controller, from the move to its place to the last barrier.  So
whatever others ask for meanwhile, its commands lie side by side on record, and when the stylus
comes down the head is where the step has sent it.

* `Contact` — where a step makes contact, and all that it sends;
* `Plan.contact?` — the contact of a step, if its locations resolve;
* `Bench.StaysInStep` — a sequence of events in which the step under way does not end before the
  last;
* `Contact.Sent` — what is on record of the step then;
* `Bench.contact_sent` — this holds for all events and all steps.

The invariant is `Standing`: the turn of the step is in the line, what it has put on record and what
it has still to send make up its commands, and nothing of it is on record while it waits.
-/

set_option autoImplicit false

namespace Stylus

/-! ## What a step sends -/

namespace Gcode

/-- A move that names the stylus drive. -/
def movesStylus : Gcode → Bool
  | .move words _ => words.any fun w => w.1 = .e
  | _ => false

/-- The command names the axis `X` or the axis `Y`. -/
def namesPlane : Gcode → Bool
  | .move words _ => words.any fun w => w.1 = .x || w.1 = .y
  | .homeAxis axis => axis = .x || axis = .y
  | .maxFeed _ => true
  | _ => false

/-- A move to a target at the feed rate of the settings. -/
def travel (settings : MotionSettings) (target : MoveTarget) : Gcode :=
  .move target.words (some settings.feedRate)

end Gcode

/-- Where a step makes contact, and all that it sends. -/
structure Contact where
  /-- where the stylus comes down -/
  point : Point
  /-- the commands of the step, in order -/
  block : List Gcode

namespace Contact

/-- The contact of a tap. -/
def tap (settings : MotionSettings) (p : Point) : Contact where
  point := p
  block := [.absolute, .travel settings (.ofPoint p), .finish,
    .relativeStylus, .move [(.e, settings.tapDepth)] none, .move [(.e, -settings.tapDepth)] none,
    .finish]

/-- The contact of a swipe. -/
def swipe (settings : MotionSettings) (start goal : Point) : Contact where
  point := start
  block := [.absolute, .travel settings (.ofPoint start), .finish,
    .absolute, .travel settings (.ofPoint start),
    .relativeStylus, .absolute, .travel settings
      ((MoveTarget.ofPoint (start.midpoint goal)).withStylus settings.swipeDepth),
    .relativeStylus, .absolute, .travel settings
      ((MoveTarget.ofPoint goal).withStylus (-settings.swipeDepth))]

/-- The contact of a tap or a swipe. -/
def Regular (settings : MotionSettings) (c : Contact) : Prop :=
  (∃ p : Point, c = tap settings p) ∨ ∃ p q : Point, c = swipe settings p q

/-- Of the commands sent before the stylus comes down, the last that names a place is the way
there. -/
theorem Regular.way {settings : MotionSettings} {c : Contact} (h : c.Regular settings)
    {before after : List Gcode} {line : Gcode} (block : before ++ line :: after = c.block)
    (down : line.movesStylus = true) (first : ∀ l ∈ before, l.movesStylus = false) :
    before.reverse.find? Gcode.namesPlane = some (.travel settings (.ofPoint c.point)) := by
  have hbefore : before = c.block.takeWhile fun l => !l.movesStylus := by
    rw [← block, List.takeWhile_append_of_pos (by simpa using first)]
    simp [down]
  rw [hbefore]
  rcases h with ⟨p, rfl⟩ | ⟨p, q, rfl⟩ <;> rfl

end Contact

/-- The contact of a step, if it makes one and its locations resolve. -/
def Plan.contact? (plan : Plan) (settings : MotionSettings) : Step → Option Contact
  | .tap location side =>
    match plan.resolve side location with
    | .ok p => some (.tap settings p)
    | .error _ => none
  | .swipe start goal side =>
    match plan.resolve side start, plan.resolve side goal with
    | .ok p, .ok q => some (.swipe settings p q)
    | _, _ => none
  | _ => none

theorem Plan.contact?_regular {plan : Plan} {settings : MotionSettings} {step : Step} {c : Contact}
    (h : plan.contact? settings step = some c) : c.Regular settings := by
  simp only [Plan.contact?] at h
  rw [Contact.Regular]
  grind

/-- A step with a contact comes to a turn that sends just the commands of the contact. -/
theorem Plan.take_of_contact? {plan : Plan} {settings : MotionSettings} {step : Step} {c : Contact}
    (h : plan.contact? settings step = some c) (cursor : Cursor) (now : Nat) :
    ∃ stages : List Stage, cursor.take plan now step = .turn stages ∧
      Stage.AllSteady settings stages ∧ Stage.allLines settings stages = c.block := by
  cases step with
  | tap location side =>
    cases hp : plan.resolve side location with
    | error f => simp [Plan.contact?, hp] at h
    | ok p =>
      simp only [Plan.contact?, hp, Option.some.injEq] at h
      subst h
      refine ⟨cursor.tapStages p, Cursor.take_iff.mpr (.tap hp), ?_, rfl⟩
      simp [Cursor.tapStages, Stage.AllSteady, Stage.Steady, Operation.legs]
  | swipe start goal side =>
    cases hp : plan.resolve side start with
    | error f => simp [Plan.contact?, hp] at h
    | ok p =>
      cases hq : plan.resolve side goal with
      | error f => simp [Plan.contact?, hp, hq] at h
      | ok q =>
        simp only [Plan.contact?, hp, hq, Option.some.injEq] at h
        subst h
        refine ⟨cursor.swipeStages p q, Cursor.take_iff.mpr (.swipe hp hq), ?_, rfl⟩
        simp [Cursor.swipeStages, Stage.AllSteady, Stage.Steady, Operation.legs]
  | _ => cases h

/-! ## What is on record of a step -/

namespace Bench

/-- A step that needs the controller is under way before each of the events. -/
def StaysInStep (b : Bench) : List Event → Prop
  | [] => True
  | e :: events => b.working = true ∧ (b.step e).StaysInStep events

/-- The command that the plotter has been sent and has not answered, and whose turn it belongs
to. -/
def outstanding? (b : Bench) : Option (Owner × Gcode) :=
  b.holder.bind fun turn =>
    match turn.activity with
    | .asking work =>
      match work.ask with
      | .link => none
      | .command line => some (turn.owner, line)
    | _ => none

/-- While a command of the run waits for its answer, a step of the run is under way. -/
theorem working_of_outstanding {b : Bench} (hs : b.Sound) {line : Gcode}
    (ask : b.outstanding? = some (.run, line)) : b.working = true := by
  cases hb : b.holder with
  | none => simp [outstanding?, hb] at ask
  | some turn =>
    have ho : turn.owner = .run := by
      simp only [outstanding?, hb, Option.bind_some] at ask
      grind
    obtain ⟨⟨run, hr, hp⟩, -⟩ := hs.holder_run hb ho
    simp [working, hr, hp]

end Bench

/-- The commands of entries, the first one first. -/
def Entry.lines (entries : List Entry) : List Gcode :=
  entries.reverse.map Entry.line

theorem Entry.lines_entries {b : Bench} {turn : Turn} (hb : b.holder = some turn)
    (e : Bench.Event) : Entry.lines (b.entries e) = (turn.answers e).map Prod.fst := by
  rw [Bench.entries_of_holder hb]
  rcases turn.answers_cases e with h | ⟨s, h⟩ <;> rw [h] <;> rfl

theorem Entry.accepted_entries {b : Bench} {turn : Turn} (hb : b.holder = some turn)
    {e : Bench.Event} (h : AllAccepted (turn.answers e)) :
    ∀ entry ∈ b.entries e, entry.accepted = true := by
  rw [Bench.entries_of_holder hb]
  intro entry he
  obtain ⟨s, hs, rfl⟩ := List.mem_map.mp he
  exact h s hs

theorem Entry.owner_entries {b : Bench} {turn : Turn} (hb : b.holder = some turn)
    {e : Bench.Event} : ∀ entry ∈ b.entries e, entry.owner = turn.owner := by
  rw [Bench.entries_of_holder hb]
  intro entry he
  obtain ⟨s, -, rfl⟩ := List.mem_map.mp he
  rfl

theorem Entry.lines_append (entries earlier : List Entry) :
    Entry.lines (entries ++ earlier) = Entry.lines earlier ++ Entry.lines entries := by
  simp [Entry.lines]

/-- **What is on record of a step with a contact.**  `base` is the record when the step began; what
has come since are the entries `own` of the step, and before them `others`. -/
structure Contact.Sent (settings : MotionSettings) (c : Contact) (base : List Entry) (b : Bench)
    (own others : List Entry) : Prop where
  /-- the entries of the step lie side by side -/
  log : b.log = own ++ others ++ base
  of_run : ∀ entry ∈ own, entry.owner = .run
  of_others : ∀ entry ∈ others, entry.owner ≠ .run
  /-- they are the commands of the contact, as far as the step has come -/
  block : Entry.lines own <+: c.block
  /-- only the last of them may have failed -/
  accepted : ∀ entry ∈ own.tail, entry.accepted = true
  /-- if the step has passed they are all of the commands -/
  passed : ∀ run : Run, b.run = some run → run.phase ≠ .working →
    Entry.lines own = c.block ∧ ∀ entry ∈ own, entry.accepted = true
  /-- a command of the step that waits for its answer is the next one -/
  next : ∀ line : Gcode, b.outstanding? = some (.run, line) →
    Entry.lines own ++ [line] <+: c.block ∧ ∀ entry ∈ own, entry.accepted = true
  /-- when the stylus is sent down, the last command on record that names a place is the step's own
  move to its point -/
  contact : ∀ line : Gcode, b.outstanding? = some (.run, line) → line.movesStylus = true →
    (∀ entry ∈ own, entry.line.movesStylus = false) →
      ∃ entry ∈ own, b.log.find? (fun entry => entry.line.namesPlane) = some entry ∧
        entry.line = .travel settings (.ofPoint c.point) ∧ entry.accepted = true

/-! ## The invariant -/

/-- **What holds while a step is under way**: its turn is in the line, and the commands on record
and those still to be sent are the commands of the step. -/
structure Standing (settings : MotionSettings) (lines : List Gcode) (base : List Entry) (b : Bench)
    (own others : List Entry) : Prop where
  log : b.log = own ++ others ++ base
  of_run : ∀ entry ∈ own, entry.owner = .run
  of_others : ∀ entry ∈ others, entry.owner ≠ .run
  accepted : ∀ entry ∈ own, entry.accepted = true
  turn : ∃ turn ∈ b.line, turn.owner = .run ∧ Stage.AllSteady settings turn.stages ∧
    Entry.lines own ++ turn.remaining settings = lines
  /-- nothing of a turn that waits is on record -/
  waits : ∀ turn : Turn, b.holder = some turn → turn.owner ≠ .run → own = []

namespace Standing

variable {settings : MotionSettings} {lines : List Gcode} {base own others : List Entry}
  {b b' : Bench} {e : Bench.Event}

/-- Of the turns in the line, only one belongs to the run. -/
theorem holder (h : Standing settings lines base b own others) (hs : b.Sound) {turn : Turn}
    (hb : b.holder = some turn) (ho : turn.owner = .run) :
    Stage.AllSteady settings turn.stages ∧ Entry.lines own ++ turn.remaining settings = lines := by
  obtain ⟨-, hcount⟩ := hs.holder_run hb ho
  obtain ⟨t, ht, hto, hrest⟩ := h.turn
  rw [Bench.line_of_holder hb, List.mem_cons] at ht
  rcases ht with rfl | ht
  · exact hrest
  · exact absurd (by simp [Bench.isRunTurn, hto]) (List.countP_eq_zero.mp hcount t ht)

/-- A command of the run that waits for its answer is the next one of the step. -/
theorem outstanding (h : Standing settings lines base b own others) (hs : b.Sound) {line : Gcode}
    (ask : b.outstanding? = some (.run, line)) :
    ∃ after : List Gcode, Entry.lines own ++ line :: after = lines := by
  cases hb : b.holder with
  | none => simp [Bench.outstanding?, hb] at ask
  | some turn =>
    simp only [Bench.outstanding?, hb, Option.bind_some] at ask
    cases ha : turn.activity with
    | asking work =>
      rw [ha] at ask
      dsimp only at ask
      cases hl : work.linking with
      | true => simp [Work.ask_of_linking hl] at ask
      | false =>
        rw [Work.ask_of_not_linking hl] at ask
        obtain ⟨ho, hline⟩ := Prod.mk.inj (Option.some.inj ask)
        obtain ⟨-, hlines⟩ := h.holder hs hb ho
        refine ⟨work.rest ++ Leg.allLines work.legs ++ Stage.allLines settings turn.stages, ?_⟩
        rw [← hlines, Turn.remaining, ha, Activity.lines, Work.lines, hline]
        rfl
    | ready => simp [ha] at ask
    | sleeping time => simp [ha] at ask

/-- What is on record while the step is under way. -/
theorem sent {c : Contact} (h : Standing settings c.block base b own others) (hs : b.Sound)
    (hw : b.working = true) (hc : c.Regular settings) : c.Sent settings base b own others := by
  refine ⟨h.log, h.of_run, h.of_others, ?_, ?_, ?_, ?_, ?_⟩
  · obtain ⟨turn, -, -, -, hlines⟩ := h.turn
    exact ⟨_, hlines⟩
  · exact fun entry he => h.accepted entry (List.mem_of_mem_tail he)
  · intro run hr hp
    rw [Bench.Sound.not_working hr hp] at hw
    cases hw
  · intro line ask
    obtain ⟨after, hlines⟩ := h.outstanding hs ask
    refine ⟨⟨after, ?_⟩, h.accepted⟩
    rw [List.append_assoc]
    exact hlines
  · intro line ask down first
    obtain ⟨after, hlines⟩ := h.outstanding hs ask
    have hway := hc.way hlines down (by simpa [Entry.lines] using first)
    rw [Entry.lines, ← List.map_reverse, List.reverse_reverse, List.find?_map] at hway
    obtain ⟨entry, hfind, hline⟩ := Option.map_eq_some_iff.mp hway
    have hmem : entry ∈ own := List.mem_of_find?_eq_some hfind
    refine ⟨entry, hmem, ?_, hline, h.accepted entry hmem⟩
    have hown : own.find? (fun entry => entry.line.namesPlane) = some entry := hfind
    rw [h.log, List.append_assoc, List.find?_append, hown]
    rfl

/-- A move that puts nothing on record and leaves the turn of the step where it is. -/
theorem quiet (h : Standing settings lines base b own others) (log : b'.log = b.log)
    (line : ∀ turn ∈ b.line, turn.owner = .run → turn ∈ b'.line)
    (holder : b'.holder = b.holder) : Standing settings lines base b' own others := by
  refine ⟨log.trans h.log, h.of_run, h.of_others, h.accepted, ?_, ?_⟩
  · obtain ⟨turn, hm, ho, hrest⟩ := h.turn
    exact ⟨turn, line turn hm ho, ho, hrest⟩
  · rw [holder]
    exact h.waits

/-- A move of someone else who has the controller, who keeps it or hands it on. -/
theorem other (h : Standing settings lines base b own others) {turn : Turn}
    (hb : b.holder = some turn) (ho : turn.owner ≠ .run) (log : b'.log = b.entries e ++ b.log)
    (line : ∀ turn ∈ b.waiting, turn ∈ b'.line) :
    Standing settings lines base b' [] (b.entries e ++ others) := by
  obtain rfl := h.waits turn hb ho
  refine ⟨?_, by simp, ?_, by simp, ?_, fun _ _ _ => rfl⟩
  · rw [log, h.log]
    simp
  · intro entry he
    rcases List.mem_append.mp he with he | he
    · rw [Entry.owner_entries hb entry he]
      exact ho
    · exact h.of_others entry he
  · obtain ⟨t, ht, hto, hrest⟩ := h.turn
    rw [Bench.line_of_holder hb, List.mem_cons] at ht
    rcases ht with rfl | ht
    · exact absurd hto ho
    · exact ⟨t, line t ht, hto, hrest⟩

/-- A move of the step that does not end it. -/
theorem busy (h : Standing settings lines base b own others) (hs : b.Sound)
    (hc : b.controller.settings = settings) {turn : Turn} {c : Controller} {activity : Activity}
    {stages : List Stage} (moving : b.moving? e = some (turn, c, .busy activity stages))
    (ho : turn.owner = .run) (log : b'.log = b.entries e ++ b.log)
    (holder : b'.holder = some { turn with activity, stages }) :
    Standing settings lines base b' (b.entries e ++ own) others := by
  obtain ⟨hb, hmoved⟩ := Bench.moving?_eq_some.mp moving
  obtain ⟨hsteady, hlines⟩ := h.holder hs hb ho
  obtain ⟨haccepted, hsteady', hleaves⟩ := Turn.moved?_leaves hc hsteady hmoved
  refine ⟨?_, ?_, h.of_others, ?_, ?_, ?_⟩
  · rw [log, h.log]
    simp
  · intro entry he
    rcases List.mem_append.mp he with he | he
    · rw [Entry.owner_entries hb entry he]
      exact ho
    · exact h.of_run entry he
  · intro entry he
    rcases List.mem_append.mp he with he | he
    · exact Entry.accepted_entries hb haccepted entry he
    · exact h.accepted entry he
  · refine ⟨{ turn with activity, stages }, ?_, ho, hsteady', ?_⟩
    · rw [Bench.line_of_holder holder]
      exact List.mem_cons_self
    rw [Entry.lines_append, Entry.lines_entries hb, List.append_assoc, Turn.remaining, hleaves]
    exact hlines
  · intro t ht hto
    rw [holder] at ht
    obtain rfl := Option.some.inj ht
    exact absurd ho hto

/-- A move that ends the turn of the step. -/
theorem finish {c : Contact} (h : Standing settings c.block base b own others) (hs : b.Sound)
    (hc : b.controller.settings = settings) {turn : Turn} {controller : Controller}
    {result : Except Failure String}
    (moving : b.moving? e = some (turn, controller, .over result)) (ho : turn.owner = .run)
    (log : b'.log = b.entries e ++ b.log) (hs' : b'.Sound) (hw' : b'.working = false)
    (passed : ∀ run, b'.run = some run → Bench.isOk result = true) :
    c.Sent settings base b' (b.entries e ++ own) others := by
  obtain ⟨hb, hmoved⟩ := Bench.moving?_eq_some.mp moving
  obtain ⟨hsteady, hlines⟩ := h.holder hs hb ho
  have hleaves := Turn.moved?_leaves hc hsteady hmoved
  have hown : Entry.lines (b.entries e ++ own) =
      Entry.lines own ++ (turn.answers e).map Prod.fst := by
    rw [Entry.lines_append, Entry.lines_entries hb]
  have hnone (line : Gcode) : b'.outstanding? ≠ some (.run, line) := by
    intro ask
    rw [Bench.working_of_outstanding hs' ask] at hw'
    cases hw'
  refine ⟨by rw [log, h.log]; simp, ?_, h.of_others, ?_, ?_, ?_, ?_, ?_⟩
  · intro entry he
    rcases List.mem_append.mp he with he | he
    · rw [Entry.owner_entries hb entry he]
      exact ho
    · exact h.of_run entry he
  · rw [hown, ← hlines, List.prefix_append_right_inj]
    cases result with
    | ok text => exact hleaves.2 ▸ List.prefix_refl _
    | error f => exact hleaves.2
  · -- at most one command is answered at a time, so all others were accepted before
    intro entry he
    refine h.accepted entry ?_
    rw [Bench.entries_of_holder hb] at he
    rcases turn.answers_cases e with ha | ⟨s, ha⟩ <;> rw [ha] at he
    · exact List.mem_of_mem_tail he
    · exact he
  · intro run hr _
    have hok := passed run hr
    cases result with
    | error f => cases hok
    | ok text =>
      obtain ⟨haccepted, hall⟩ := hleaves
      refine ⟨by rw [hown, hall, hlines], fun entry he => ?_⟩
      rcases List.mem_append.mp he with he | he
      · exact Entry.accepted_entries hb haccepted entry he
      · exact h.accepted entry he
  · exact fun line ask => absurd ask (hnone line)
  · exact fun line ask => absurd ask (hnone line)

/-- A run that works is neither begun nor at a boundary. -/
theorem not_boundary {run run' : Run} (hr : b.run = some run) (hp : run.phase = .working)
    (hr' : b.run = some run') : run'.phase ≠ .boundary := by
  obtain rfl := Option.some.inj (hr.symm.trans hr')
  simp [hp]

/-- **Every event keeps the step standing, or ends it with its commands on record.** -/
theorem move {c : Contact} (h : Standing settings c.block base b own others) (hs : b.Sound)
    (hw : b.working = true) (hc : b.controller.settings = settings) (hs' : b'.Sound)
    (hm : Bench.Move b e b') :
    (b'.working = true ∧ ∃ own' others', Standing settings c.block base b' own' others') ∨
      (b'.working = false ∧ ∃ own' others', c.Sent settings base b' own' others') := by
  obtain ⟨run, hr, hp⟩ := Bench.working_iff.mp hw
  cases hm with
  | idle => exact .inl ⟨hw, own, others, h⟩
  | pass span => exact .inl ⟨hw, own, others, h.quiet rfl (fun _ ht _ => ht) rfl⟩
  | start accepted idle =>
    rw [hs.running, hr] at idle
    cases idle
  | @wish _ change wish =>
    obtain ⟨phase, hwake, hiff⟩ := Bench.wakeRun_eq (b := { b with runner := change b.runner }) hr
    rw [Bench.control, hwake]
    exact .inl ⟨by simp [Bench.working, hiff, hp], own, others, h.quiet rfl (fun _ ht _ => ht) rfl⟩
  | poll =>
    obtain ⟨phase, hwake, hiff⟩ := Bench.wakeRun_eq hr
    rw [hwake]
    exact .inl ⟨by simp [Bench.working, hiff, hp], own, others, h.quiet rfl (fun _ ht _ => ht) rfl⟩
  | queue guest stages =>
    cases hb : b.holder with
    | none =>
      -- the turn of the step is in the line, so the controller is not free
      obtain ⟨turn, ht, -⟩ := h.turn
      simp [Bench.line, hb, hs.free hb] at ht
    | some holder =>
      refine .inl ⟨by simpa [Bench.working] using hw, own, others, h.quiet (by simp) ?_ ?_⟩
      · intro turn ht _
        rw [Bench.line_queue hs.free]
        exact List.mem_append_left _ ht
      · rw [Bench.queue_of_held hb, hb]
  | withdraw guest =>
    exact .inl ⟨hw, own, others, h.quiet rfl (fun _ => Bench.mem_line_withdraw guest) rfl⟩
  | @busy _ turn controller activity stages moving =>
    refine .inl ⟨hw, ?_⟩
    by_cases ho : turn.owner = .run
    · exact ⟨_, _, h.busy hs hc moving ho rfl rfl⟩
    · refine ⟨_, _, h.other (Bench.moving?_eq_some.mp moving).1 ho rfl ?_⟩
      intro t ht
      exact List.mem_cons_of_mem _ ht
  | @finish _ turn controller result moving =>
    by_cases ho : turn.owner = .run
    · have hr' : Bench.run { b with log := b.entries e ++ b.log, controller := controller } =
          some run := hr
      rw [ho] at hs' ⊢
      refine .inr ?_
      cases result with
      | ok text =>
        rw [Bench.turnOver_run_ok hr', Bench.handOn_eq] at hs' ⊢
        exact ⟨rfl, _, _, h.finish hs hc moving ho rfl hs' rfl fun _ _ => rfl⟩
      | error f =>
        rw [Bench.turnOver_run_error hr', Bench.handOn_eq] at hs' ⊢
        exact ⟨rfl, _, _, h.finish hs hc moving ho rfl hs' rfl (by rintro _ ⟨⟩)⟩
    · have hb := (Bench.moving?_eq_some.mp moving).1
      rw [Bench.turnOver_guest ho, Bench.handOn_eq]
      refine .inl ⟨by simpa [Bench.working] using hw, _, _, h.other hb ho rfl fun t ht => ?_⟩
      cases hq : b.waiting with
      | nil => simp [hq] at ht
      | cons first rest => simpa [Bench.line, hq] using ht
  | stopped run_eq boundary => exact absurd boundary (not_boundary hr hp run_eq)
  | rest run_eq boundary => exact absurd boundary (not_boundary hr hp run_eq)
  | completed run_eq boundary => exact absurd boundary (not_boundary hr hp run_eq)
  | takeTurn begins =>
    obtain ⟨run_eq, boundary, -⟩ := Bench.begins?_decide.mp begins
    exact absurd boundary (not_boundary hr hp run_eq)
  | takeDone begins =>
    obtain ⟨run_eq, boundary, -⟩ := Bench.begins?_decide.mp begins
    exact absurd boundary (not_boundary hr hp run_eq)
  | takeFailed begins =>
    obtain ⟨run_eq, boundary, -⟩ := Bench.begins?_decide.mp begins
    exact absurd boundary (not_boundary hr hp run_eq)

end Standing

/-! ## Sequences of events -/

namespace Bench

/-- While a step stands it is on record as it should be, and so it is when it has ended. -/
theorem sent_of_standing {settings : MotionSettings} {c : Contact} (hc : c.Regular settings)
    {base own others : List Entry} {b : Bench} {events : List Event} (hs : b.Sound)
    (hset : b.controller.settings = settings) (hw : b.working = true)
    (h : Standing settings c.block base b own others) (stays : b.StaysInStep events) :
    ∃ own' others', c.Sent settings base (b.steps events) own' others' := by
  induction events generalizing b own others with
  | nil => exact ⟨own, others, h.sent hs hw hc⟩
  | cons e events ih =>
    have hs' := hs.step_event e
    have hset' := (move_settings (b.move e)).trans hset
    rcases h.move hs hw hset hs' (b.move e) with ⟨hw', own', others', h'⟩ | ⟨hw', hsent⟩
    · exact ih hs' hset' hw' h' stays.2
    · -- the step has ended by this event, so it was the last one
      cases events with
      | nil => exact hsent
      | cons e' events =>
        rw [stays.2.1] at hw'
        cases hw'

/-- A step with a contact that has just begun stands, and has nothing on record. -/
theorem standing_of_begins {settings : MotionSettings} {b : Bench} {run : Run} {step : Step}
    {c : Contact} (hs : b.Sound) (begins : b.begins? .decide = some (run, step))
    (contact : run.plan.contact? settings step = some c) :
    (b.step .decide).working = true ∧
      Standing settings c.block b.log (b.step .decide) [] [] := by
  obtain ⟨stages, taken, steady, lines⟩ := Plan.take_of_contact? contact run.cursor b.now
  obtain ⟨hr, hp, hcontrol, hstep⟩ := begins?_decide.mp begins
  have hdecide : b.step .decide =
      queue { b with run := some { run with phase := .working } } .run stages := by
    simp [Bench.step, Bench.decide, hr, hp, hcontrol, hstep, taken]
  rw [hdecide]
  refine ⟨by simp [working], by simp, by simp, by simp, by simp, ?_, fun _ _ _ => rfl⟩
  refine ⟨⟨.run, .ready, stages⟩, ?_, rfl, steady, lines⟩
  rw [line_queue (b := { b with run := some { run with phase := .working } }) hs.free]
  exact List.mem_append_right _ (List.mem_singleton_self _)

/-- **A step with a contact makes it where it belongs.**  Whatever has happened before it begins,
and whatever others ask for and the plotter answers while it is under way, its commands lie side by
side on record, they are the commands of its contact as far as it has come, and when the stylus is
sent down the last place named on record is its own. -/
theorem contact_sent {settings : MotionSettings} {before during : List Event} {run : Run}
    {step : Step} {c : Contact}
    (begins : ((fresh settings).steps before).begins? .decide = some (run, step))
    (contact : run.plan.contact? settings step = some c)
    (stays : (((fresh settings).steps before).step .decide).StaysInStep during) :
    ∃ own others : List Entry,
      c.Sent settings ((fresh settings).steps before).log
        ((fresh settings).steps (before ++ .decide :: during)) own others := by
  have hs := (Sound.of_fresh settings).steps before
  have hset := steps_settings (fresh settings) before
  rw [steps_append, steps_cons]
  generalize (fresh settings).steps before = b at *
  have hs' := hs.step_event .decide
  have hset' := (move_settings (b.move .decide)).trans hset
  obtain ⟨hw', h'⟩ := standing_of_begins hs begins contact
  exact sent_of_standing (Plan.contact?_regular contact) hs' hset' hw' h' stays

/-- A script that taps once. -/
def tapOnce : RunRequest where
  script := { steps := [.tap "A" none] }
  left := some ((Layout.new "").learn .left "A" ⟨10, 20⟩)

/-- The plotter is homed, and a run is asked for. -/
def beforeTap : List Event :=
  [.queue .operator [.operate .home], .proceed, .answer (.ok ""), .answer (.ok "ok"),
    .request tapOnce]

/-- The head goes to its place while a client asks for a move of its own. -/
def duringTap : List Event :=
  [.proceed, .answer (.ok "ok"), .queue (.client 0) [.operate .load], .answer (.ok "ok"),
    .answer (.ok "ok"), .answer (.ok "ok")]

theorem contact_sent_tapOnce :
    ∃ (run : Run) (step : Step) (c : Contact) (own others : List Entry),
      ((fresh {}).steps beforeTap).begins? .decide = some (run, step) ∧
        run.plan.contact? {} step = some c ∧
        (((fresh {}).steps beforeTap).step .decide).StaysInStep duringTap ∧
        ((fresh {}).steps (beforeTap ++ .decide :: duringTap)).outstanding? =
          some (.run, .move [(.e, MotionSettings.tapDepth {})] none) ∧
        c.Sent {} ((fresh {}).steps beforeTap).log
          ((fresh {}).steps (beforeTap ++ .decide :: duringTap)) own others := by
  have begins : ((fresh {}).steps beforeTap).begins? .decide = some (_, .tap "A" none) := rfl
  have stays : (((fresh {}).steps beforeTap).step .decide).StaysInStep duringTap :=
    ⟨rfl, rfl, rfl, rfl, rfl, rfl, trivial⟩
  obtain ⟨own, others, h⟩ := contact_sent begins (c := .tap {} ⟨10, 20⟩) rfl stays
  exact ⟨_, _, _, own, others, begins, rfl, stays, rfl, h⟩

end Bench

end Stylus
