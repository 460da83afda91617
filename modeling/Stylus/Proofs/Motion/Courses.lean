import Stylus.Proofs.Motion.Tracking

/-!
# Operations from begin to end

A `Drive` goes on from answer to answer; here each operation is followed from where it is begun to
where it is over.  A `Course` is an operation with what was asked for in its course and the answers,
and a `Logbook` holds the courses of all operations.

* `Drive.watched` — a drive with its logbook, along events;
* `Course.Under` — how far an operation under way has come;
* `Course.Ends` — **what an operation comes to**: it is refused, there is no link, a command fails,
  or all its commands are acknowledged;
* `Course.stands_begin`, `Course.Under.answered` — every operation stands so when it is begun, and
  after every answer.

The legs of an operation are the parts that it is made of: `done` are those of which every command
has been acknowledged, and the pose is as after these.
-/

set_option autoImplicit false

namespace Stylus

/-! ## Records -/

/-- What was asked for, and the answer. -/
structure Answered where
  ask : Ask
  answer : Except Failure String

/-- An operation that has been begun. -/
structure Course where
  op : Operation
  /-- the controller when the operation was begun -/
  before : Controller
  /-- what has been asked for and answered, in order -/
  record : List Answered := []

/-- An operation that is over. -/
structure Finished extends Course where
  result : Except Failure String
  /-- the controller when the operation was over -/
  after : Controller

/-- The operations begun so far. -/
structure Logbook where
  /-- the operations that are over, the first one first -/
  past : List Finished := []
  /-- the operation under way -/
  present : Option Course := none

/-- The command that is asked for. -/
def Ask.line? : Ask → Option Gcode
  | .command line => some line
  | .link => none

namespace Answered

/-- The answer was good. -/
def Good (x : Answered) : Prop :=
  ∃ text, x.answer = .ok text

theorem forall_good_concat {good : List Answered} (all_good : ∀ x ∈ good, x.Good) (ask : Ask)
    (text : String) : ∀ x ∈ good ++ [⟨ask, .ok text⟩], x.Good :=
  List.forall_mem_append.mpr ⟨all_good, List.forall_mem_singleton.mpr ⟨text, rfl⟩⟩

/-- The command that was sent. -/
def sent? (x : Answered) : Option Gcode :=
  x.ask.line?

/-- The command that was acknowledged. -/
def acknowledged? (x : Answered) : Option Gcode :=
  match x.answer with
  | .ok _ => x.sent?
  | .error _ => none

theorem acknowledged?_of_good {x : Answered} (h : x.Good) : x.acknowledged? = x.sent? := by
  obtain ⟨text, h⟩ := h
  rw [acknowledged?, h]

end Answered

namespace Course

/-- The legs that the operation is made of. -/
def legs (x : Course) : List Leg :=
  x.op.legs x.before.settings x.before.pose

/-- What is asked for before any command: a link, if there is none. -/
def opening (x : Course) : List Ask :=
  if x.before.linked then [] else [.link]

/-- The commands sent, in order. -/
def sent (x : Course) : List Gcode :=
  x.record.filterMap Answered.sent?

/-- The commands acknowledged, in order. -/
def acknowledged (x : Course) : List Gcode :=
  x.record.filterMap Answered.acknowledged?

/-- One more answer. -/
def add (x : Course) (ask : Ask) (answer : Except Failure String) : Course :=
  { x with record := x.record ++ [⟨ask, answer⟩] }

@[simp] theorem add_op (x : Course) (ask : Ask) (a : Except Failure String) :
    (x.add ask a).op = x.op := rfl

@[simp] theorem add_before (x : Course) (ask : Ask) (a : Except Failure String) :
    (x.add ask a).before = x.before := rfl

@[simp] theorem add_legs (x : Course) (ask : Ask) (a : Except Failure String) :
    (x.add ask a).legs = x.legs := rfl

@[simp] theorem add_opening (x : Course) (ask : Ask) (a : Except Failure String) :
    (x.add ask a).opening = x.opening := rfl

@[simp] theorem add_record (x : Course) (ask : Ask) (a : Except Failure String) :
    (x.add ask a).record = x.record ++ [⟨ask, a⟩] := rfl

end Course

namespace Logbook

/-- An operation goes on, or is over. -/
def goOn (l : Logbook) (x : Course) (c : Controller) : Progress → Logbook
  | .asking _ => { l with present := some x }
  | .over result => ⟨l.past ++ [{ x with result, after := c }], none⟩

/-- Takes note of an event. -/
def note (l : Logbook) (d : Drive) : Drive.Event → Logbook
  | .operate op =>
    match d.work with
    | none => l.goOn ⟨op, d.controller, []⟩ d.controller (d.controller.begin op)
    | some _ => l
  | .answer a _ =>
    match d.work, l.present with
    | some work, some x =>
      l.goOn (x.add work.ask a) (d.controller.answered work a).1 (d.controller.answered work a).2
    | _, _ => l

/-- The operations begun, the first one first. -/
def courses (l : Logbook) : List Course :=
  l.past.map Finished.toCourse ++ l.present.toList

/-- All that was asked for and answered. -/
def record (l : Logbook) : List Answered :=
  l.courses.flatMap Course.record

end Logbook

/-- A drive with its logbook, along events. -/
def Drive.watched (d : Drive) (events : List Drive.Event) : Drive × Logbook :=
  events.foldl (fun s e => (s.1.step e, s.2.note s.1 e)) (d, {})

/-! ## Poses and legs -/

/-- The pose after legs. -/
def Pose.through (pose : Pose) (legs : List Leg) : Pose :=
  legs.foldl (fun pose leg => pose.after leg.track) pose

theorem Pose.through_concat (pose : Pose) (legs : List Leg) (leg : Leg) :
    pose.through (legs ++ [leg]) = (pose.through legs).after leg.track := by
  rw [through, List.foldl_append]
  rfl

theorem Pose.homed_through {pose : Pose} {legs : List Leg} :
    (pose.through legs).homed = true ↔ pose.homed = true ∨ ∃ leg ∈ legs, leg.track = .origin := by
  induction legs generalizing pose with
  | nil => simp [through]
  | cons leg legs ih =>
    rw [through, List.foldl_cons, ← through, ih, homed_after, or_assoc]
    simp

namespace Operation

variable {settings : MotionSettings} {pose : Pose}

/-- The operations that are refused while the plotter is not homed. -/
def needsHome : Operation → Bool
  | moveTo _ | moveAbsolute _ _ | swipe _ _ => true
  | _ => false

/-- An operation that is not refused is not refused on the way either. -/
theorem homed_of_needsHome {op : Operation} (h : op.needsHome = true → pose.homed = true)
    {leg : Leg} (hm : leg ∈ op.legs settings pose) (needs : leg.needsHome = true) :
    pose.homed = true := by
  cases op with
  | moveTo target => exact h rfl
  | moveAbsolute axis position => exact h rfl
  | swipe start goal => exact h rfl
  | load =>
    rw [legs] at hm
    split at hm
    · assumption
    · rcases List.mem_cons.mp hm with rfl | hm
      · cases needs
      · cases List.mem_singleton.mp hm
        cases needs
  | _ =>
    cases List.mem_singleton.mp hm
    cases needs

/-- An operation that needs the plotter homed needs it for its first leg. -/
theorem legs_of_needsHome {op : Operation} (h : op.needsHome = true) (settings : MotionSettings)
    (pose : Pose) :
    ∃ leg rest, op.legs settings pose = leg :: rest ∧ leg.needsHome = true := by
  have hmove (target : MoveTarget) : (Leg.moveTo settings target).needsHome = true := by
    rw [Leg.moveTo]
    split <;> rfl
  cases op with
  | moveTo target => exact ⟨_, _, rfl, hmove _⟩
  | moveAbsolute axis position => exact ⟨_, _, rfl, rfl⟩
  | swipe start goal => exact ⟨_, _, rfl, hmove _⟩
  | _ => cases h

/-- Only homing brings the head to the origin, and it has one leg. -/
theorem legs_of_origin {op : Operation} {leg : Leg} (hm : leg ∈ op.legs settings pose)
    (h : leg.track = .origin) : op = .home := by
  have hmove (target : MoveTarget) : (Leg.moveTo settings target).track ≠ .origin := by
    rw [Leg.moveTo]
    split <;> simp
  cases op with
  | home => rfl
  | moveTo target =>
    cases List.mem_singleton.mp hm
    exact absurd h (hmove target)
  | swipe start goal =>
    simp only [legs, List.mem_cons, List.not_mem_nil, or_false] at hm
    rcases hm with rfl | rfl | rfl <;> exact absurd h (hmove _)
  | load =>
    rw [legs] at hm
    split at hm
    · cases List.mem_singleton.mp hm
      cases h
    · rcases List.mem_cons.mp hm with rfl | hm
      · cases h
      · cases List.mem_singleton.mp hm
        cases h
  | _ =>
    cases List.mem_singleton.mp hm
    cases h

/-- Until its last leg is done, no operation changes whether the plotter is homed. -/
theorem homed_through {op : Operation} {done rest : List Leg} {leg : Leg}
    (h : op.legs settings pose = done ++ leg :: rest) :
    (pose.through done).homed = pose.homed := by
  rw [Bool.eq_iff_iff, Pose.homed_through, or_iff_left]
  rintro ⟨first, hm, origin⟩
  have hop := legs_of_origin (h ▸ List.mem_append_left _ hm) origin
  subst hop
  have hlength := congrArg List.length h
  have hpos := List.length_pos_of_mem hm
  simp only [legs, List.length_append, List.length_cons, List.length_nil] at hlength
  omega

/-- An operation that is done has homed the plotter only if it was to. -/
theorem homed_through_legs (op : Operation) :
    (pose.through (op.legs settings pose)).homed = true ↔ pose.homed = true ∨ op = .home := by
  rw [Pose.homed_through]
  constructor
  · rintro (homed | ⟨leg, hm, origin⟩)
    · exact .inl homed
    · exact .inr (legs_of_origin hm origin)
  · rintro (homed | rfl)
    · exact .inl homed
    · exact .inr ⟨_, List.mem_singleton_self _, rfl⟩

end Operation

/-! ## How far an operation has come -/

/-- A controller that was at `start` when an operation was begun, when the legs `done` are done,
with a link or without. -/
structure Controller.Reached (start c : Controller) (done : List Leg) (linked : Bool) : Prop where
  settings : c.settings = start.settings
  linked : c.linked = linked
  pose : c.pose = start.pose.through done
  published : start.published = start.pose → c.published = c.pose

/-- The controller takes note of one more leg. -/
theorem Controller.Reached.track {start c : Controller} {done : List Leg} {linked : Bool}
    (h : start.Reached c done linked) (leg : Leg) :
    start.Reached (c.track leg.track) (done ++ [leg]) linked where
  settings := (c.track_settings _).trans h.settings
  linked := (c.track_linked _).trans h.linked
  pose := by rw [c.track_pose, h.pose, Pose.through_concat]
  published hp := Controller.track_published (h.published hp) _

namespace Course

/-- **How far an operation under way has come**: the legs `done`, and of the leg after these the
commands `acked`. -/
structure Under (x : Course) (c : Controller) (work : Work) (done : List Leg) (leg : Leg)
    (acked : List Gcode) : Prop where
  legs : x.legs = done ++ leg :: work.legs
  lines : leg.lines = acked ++ work.line :: work.rest
  track : work.track = leg.track
  reached : x.before.Reached c done (!work.linking)
  /-- the operation was not refused -/
  begun : x.op.needsHome = true → x.before.pose.homed = true
  /-- a link is made before anything else, and only if there was none -/
  linking : work.linking = true →
    x.before.linked = false ∧ done = [] ∧ acked = [] ∧ x.record = []
  asks : work.linking = false →
    x.record.map Answered.ask = x.opening ++ (Leg.allLines done ++ acked).map Ask.command
  good : ∀ y ∈ x.record, y.Good

/-- **What an operation comes to.** -/
inductive Ends (x : Course) (c : Controller) : Except Failure String → Prop where
  /-- it is refused, and nothing is asked for -/
  | refused (needsHome : x.op.needsHome = true) (unhomed : x.before.pose.homed = false)
      (silent : x.record = []) (same : c = x.before) : Ends x c (.error .notHomed)
  /-- there is no link -/
  | unlinked {f : Failure} (begun : x.op.needsHome = true → x.before.pose.homed = true)
      (without : x.before.linked = false) (record : x.record = [⟨.link, .error f⟩])
      (reached : x.before.Reached c [] false) : Ends x c (.error f)
  /-- a command fails -/
  | broken {f : Failure} {done rest : List Leg} {leg : Leg} {acked unsent : List Gcode}
      {line : Gcode} {good : List Answered}
      (begun : x.op.needsHome = true → x.before.pose.homed = true)
      (legs : x.legs = done ++ leg :: rest) (lines : leg.lines = acked ++ line :: unsent)
      (record : x.record = good ++ [⟨.command line, .error f⟩]) (all_good : ∀ y ∈ good, y.Good)
      (asks : good.map Answered.ask = x.opening ++ (Leg.allLines done ++ acked).map Ask.command)
      (reached : x.before.Reached c done (!f.isLinkLost)) : Ends x c (.error f)
  /-- all commands are acknowledged; the text is the answer to the last one -/
  | done {text : String} {line : Gcode} {good : List Answered}
      (begun : x.op.needsHome = true → x.before.pose.homed = true)
      (record : x.record = good ++ [⟨.command line, .ok text⟩]) (all_good : ∀ y ∈ good, y.Good)
      (asks : x.record.map Answered.ask = x.opening ++ (Leg.allLines x.legs).map Ask.command)
      (reached : x.before.Reached c x.legs true) : Ends x c (.ok text)

/-- Where an operation stands. -/
def Stands (x : Course) (c : Controller) : Progress → Prop
  | .asking work => ∃ done leg acked, x.Under c work done leg acked
  | .over result => x.Ends c result

variable {x : Course} {c : Controller} {work : Work} {done rest : List Leg} {leg : Leg}
  {acked : List Gcode}

/-- The next leg is begun, or there is none left and the operation is over. -/
theorem stands_next {line : Gcode} {text : String} {good : List Answered}
    (begun : x.op.needsHome = true → x.before.pose.homed = true) (legs : x.legs = done ++ rest)
    (reached : x.before.Reached c done true)
    (record : x.record = good ++ [⟨.command line, .ok text⟩]) (all_good : ∀ y ∈ good, y.Good)
    (asks : x.record.map Answered.ask = x.opening ++ (Leg.allLines done).map Ask.command) :
    x.Stands c (c.next text rest) := by
  cases rest with
  | nil =>
    rw [List.append_nil] at legs
    subst legs
    exact .done begun record all_good asks reached
  | cons leg rest =>
    have hallowed : leg.needsHome = true → c.pose.homed = true := by
      intro needs
      rw [reached.pose, Operation.homed_through legs]
      have hm : leg ∈ x.legs := by simp [legs]
      exact Operation.homed_of_needsHome begun hm needs
    rw [Controller.next_cons hallowed]
    rw [reached.linked]
    refine ⟨done, leg, [], legs, rfl, rfl, reached, begun, nofun, ?_, ?_⟩
    · intro _
      rw [asks, List.append_nil]
    · exact record ▸ Answered.forall_good_concat all_good _ text

/-- **Where an operation stands when it is begun.** -/
theorem stands_begin (c : Controller) (op : Operation) : Stands ⟨op, c, []⟩ c (c.begin op) := by
  by_cases refused : op.needsHome = true ∧ c.pose.homed = false
  · obtain ⟨needs, unhomed⟩ := refused
    obtain ⟨leg, rest, hlegs, hneeds⟩ := Operation.legs_of_needsHome needs c.settings c.pose
    rw [Controller.begin, hlegs, Controller.next, if_pos (by simp [hneeds, unhomed])]
    exact .refused needs unhomed rfl rfl
  · have begun : op.needsHome = true → c.pose.homed = true := by simpa using refused
    obtain ⟨leg, rest, hlegs⟩ := List.exists_cons_of_ne_nil (op.legs_ne_nil c.settings c.pose)
    have hallowed := Operation.homed_of_needsHome begun (hlegs ▸ List.mem_cons_self (a := leg))
    rw [Controller.begin, hlegs, Controller.next_cons hallowed]
    refine ⟨[], leg, [], hlegs, rfl, rfl, ⟨rfl, by simp, rfl, id⟩, begun, ?_, ?_, by simp⟩
    · intro hlinking
      exact ⟨by simpa using hlinking, rfl, rfl, rfl⟩
    · intro hlinked
      simp [opening, Leg.allLines, show c.linked = true by simpa using hlinked]

namespace Under

/-- When a command is acknowledged, one more has been asked for. -/
theorem asks_answered (h : x.Under c work done leg acked) (asked : work.linking = false)
    (text : String) :
    (x.add (.command work.line) (.ok text)).record.map Answered.ask =
      x.opening ++ (Leg.allLines done ++ (acked ++ [work.line])).map Ask.command := by
  simp [h.asks asked]

/-- **Where an operation stands after an answer.** -/
theorem answered (h : x.Under c work done leg acked) (a : Except Failure String) :
    (x.add work.ask a).Stands (c.answered work a).1 (c.answered work a).2 := by
  have taken := c.takes_answered work a
  generalize (c.answered work a).1 = c', (c.answered work a).2 = progress at taken ⊢
  cases taken with
  | linked linking text =>
    obtain ⟨hwithout, rfl, rfl, hrecord⟩ := h.linking linking
    have hreached : x.before.Reached { c with linked := true } [] true :=
      ⟨h.reached.settings, rfl, h.reached.pose, h.reached.published⟩
    rw [Work.ask_of_linking linking]
    refine ⟨[], leg, [], h.legs, h.lines, h.track, hreached, h.begun, nofun, ?_, ?_⟩
    · intro _
      simp [hrecord, opening, hwithout, Leg.allLines]
    · simp [hrecord, Answered.Good]
  | unlinked linking f =>
    obtain ⟨hwithout, rfl, rfl, hrecord⟩ := h.linking linking
    have hreached := h.reached
    rw [linking] at hreached
    rw [Work.ask_of_linking linking]
    exact .unlinked h.begun hwithout (by simp [hrecord]) hreached
  | failed asked f =>
    have hlinked : c.linked = true := by rw [h.reached.linked, asked]; rfl
    rw [Work.ask_of_not_linking asked]
    refine .broken h.begun h.legs h.lines rfl h.good (h.asks asked) ?_
    exact ⟨h.reached.settings, by simp [hlinked], h.reached.pose, h.reached.published⟩
  | @onward asked line rest more text =>
    rw [Work.ask_of_not_linking asked]
    refine ⟨done, leg, acked ++ [work.line], h.legs, ?_, h.track, h.reached, h.begun, ?_,
      fun _ => h.asks_answered asked text, Answered.forall_good_concat h.good _ text⟩
    · rw [h.lines, more]
      simp
    · intro linking
      cases asked.symm.trans linking
  | legDone asked last text =>
    have hlines : leg.lines = acked ++ [work.line] := by rw [h.lines, last]
    have hreached := h.reached.track leg
    rw [asked, ← h.track] at hreached
    rw [Work.ask_of_not_linking asked]
    refine stands_next h.begun ?_ hreached rfl h.good ?_
    · rw [add_legs, h.legs, List.append_assoc, List.singleton_append]
    · rw [h.asks_answered asked, ← hlines]
      simp [Leg.allLines]

end Under

end Course

/-! ## The logbook -/

namespace Logbook

/-- Operations that are over, each begun where the one before it was over. -/
inductive Chain (start : Controller) : List Finished → Controller → Prop where
  | nil : Chain start [] start
  | concat {past : List Finished} {x : Finished} (before : Chain start past x.before)
      (ends : x.Ends x.after x.result) : Chain start (past ++ [x]) x.after

/-- The logbook is that of the drive. -/
inductive Fits (start : Controller) (d : Drive) : Logbook → Prop where
  | idle {past : List Finished} (free : d.work = none) (chain : Chain start past d.controller) :
      Fits start d ⟨past, none⟩
  | busy {past : List Finished} {x : Course} {work : Work} {done : List Leg} {leg : Leg}
      {acked : List Gcode} (busy : d.work = some work) (chain : Chain start past x.before)
      (under : x.Under d.controller work done leg acked) : Fits start d ⟨past, some x⟩

variable {start : Controller}

theorem fits_goOn {past : List Finished} {x : Course} {present : Option Course} {c : Controller}
    {p : Progress} {d : Drive} (chain : Chain start past x.before) (stands : x.Stands c p)
    (controller : d.controller = c) (work : d.work = Drive.under p) :
    Fits start d (goOn ⟨past, present⟩ x c p) := by
  subst controller
  match p, stands with
  | .asking w, ⟨done, leg, acked, under⟩ => exact .busy work chain under
  | .over result, ends => exact .idle work (chain.concat (x := { x with result, after := _ }) ends)

/-- Every event keeps the logbook that of the drive. -/
theorem Fits.step {d : Drive} {l : Logbook} (h : Fits start d l) (e : Drive.Event) :
    Fits start (d.step e) (l.note d e) := by
  cases h with
  | idle free chain =>
    cases e with
    | operate op =>
      simp only [note, Drive.step, free]
      exact fits_goOn chain (Course.stands_begin d.controller op) rfl rfl
    | answer a relative =>
      simp only [note, Drive.step, free]
      exact .idle free chain
  | busy busy chain under =>
    cases e with
    | operate op =>
      simp only [note, Drive.step, busy]
      exact .busy busy chain under
    | answer a relative =>
      simp only [note, Drive.step, busy]
      exact fits_goOn (x := Course.add _ _ _) chain (under.answered a) rfl rfl

/-- **Every operation has a course of its own**, whatever is asked for in whatever order and however
it is answered: each is begun where the one before it was over, and stands or ends as it should. -/
theorem fits_watched {d : Drive} (free : d.work = none) (events : List Drive.Event) :
    Fits d.controller (d.watched events).1 (d.watched events).2 := by
  suffices ∀ s : Drive × Logbook, Fits d.controller s.1 s.2 →
      Fits d.controller (events.foldl (fun s e => (s.1.step e, s.2.note s.1 e)) s).1
        (events.foldl (fun s e => (s.1.step e, s.2.note s.1 e)) s).2 from
    this _ (.idle free .nil)
  intro s h
  induction events generalizing s with
  | nil => exact h
  | cons e events ih => exact ih _ (h.step e)

end Logbook

end Stylus
