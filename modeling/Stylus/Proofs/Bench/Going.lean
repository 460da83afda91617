import Stylus.Proofs.Bench.Moves
import Stylus.Proofs.Motion.Controller

/-!
# How a turn goes on

A turn starts the legs that are left of an operation, and after them its stages, until there is
something to wait for: a command, a link, a deadline.  Stages that have nothing to do are passed by,
and an operation that needs the plotter homed may be refused.

* `Turn.GoesOn` — what becomes of legs and stages, case by case;
* `Turn.goesOn_goOn` — `Turn.goOn` is one of the cases, with no legs left;
* `Turn.Moved` — what an event does to a turn, with the commands that are answered by it;
* `Turn.moved_of_moved?` — **it does nothing else**.

Whatever is to be shown of all turns is shown by induction on `Turn.GoesOn`, and then for the six
cases of `Turn.Moved`.
-/

set_option autoImplicit false

namespace Stylus.Turn

variable {c c' : Controller} {now : Nat} {text : String} {turn : Turn} {e : Bench.Event}
  {s : TurnState}

/-! ## Going on -/

/-- **What becomes of legs and of the stages after them**, `text` being the answer to the last
command. -/
inductive GoesOn (c : Controller) (now : Nat) :
    String → List Leg → List Stage → TurnState → Prop where
  /-- nothing is left -/
  | done (text : String) : GoesOn c now text [] [] (.over (.ok text))
  /-- the next leg is begun -/
  | asks {text : String} {leg : Leg} {legs : List Leg} {stages : List Stage}
      (allowed : leg.needsHome = true → c.pose.homed = true) :
      GoesOn c now text (leg :: legs) stages
        (.busy (.asking ⟨!c.linked, leg.first, leg.others, leg.track, legs⟩) stages)
  /-- the next leg is refused -/
  | refused {text : String} {leg : Leg} {legs : List Leg} {stages : List Stage}
      (needsHome : leg.needsHome = true) (unhomed : c.pose.homed = false) :
      GoesOn c now text (leg :: legs) stages (.over (.error .notHomed))
  | operate {text : String} {op : Operation} {stages : List Stage} {s : TurnState}
      (rest : GoesOn c now "" (op.legs c.settings c.pose) stages s) :
      GoesOn c now text [] (.operate op :: stages) s
  /-- the plotter is homed already -/
  | homed {text : String} {stages : List Stage} {s : TurnState} (homed : c.pose.homed = true)
      (rest : GoesOn c now text [] stages s) : GoesOn c now text [] (.homeUnlessHomed :: stages) s
  | homes {text : String} {stages : List Stage} (unhomed : c.pose.homed = false) :
      GoesOn c now text [] (.homeUnlessHomed :: stages)
        (.busy (.asking ⟨!c.linked, .home, [], .origin, []⟩) stages)
  /-- the deadline is past, or too near to sleep until then -/
  | awake {text : String} {deadline : Option Nat} {stages : List Stage} {s : TurnState}
      (ready : mustWait now deadline = none) (rest : GoesOn c now text [] stages s) :
      GoesOn c now text [] (.awaitReady deadline :: stages) s
  | sleeps {text : String} {deadline : Option Nat} {time : Nat} {stages : List Stage}
      (wait : mustWait now deadline = some time) :
      GoesOn c now text [] (.awaitReady deadline :: stages) (.busy (.sleeping time) stages)

theorem goOn_operate (c : Controller) (now : Nat) (text : String) (op : Operation)
    (stages : List Stage) :
    goOn c now text (.operate op :: stages) = after c now stages (c.begin op) := by
  rw [goOn]
  split
  · rename_i h
    rw [h, after]
  · rename_i h
    rw [h, after]
  · rename_i h
    rw [h, after]

theorem goesOn_next {stages : List Stage}
    (rest : ∀ text, GoesOn c now text [] stages (goOn c now text stages)) (text : String)
    (legs : List Leg) : GoesOn c now text legs stages (after c now stages (c.next text legs)) := by
  cases legs with
  | nil => exact rest text
  | cons leg legs =>
    rw [Controller.next]
    split
    · rename_i needs
      simp only [Bool.and_eq_true, Bool.not_eq_true'] at needs
      exact .refused needs.1 needs.2
    · rename_i allowed
      exact .asks fun needs => by simpa [needs] using allowed

/-- **So a turn goes on.** -/
theorem goesOn_goOn (c : Controller) (now : Nat) (text : String) (stages : List Stage) :
    GoesOn c now text [] stages (goOn c now text stages) := by
  induction stages generalizing text with
  | nil => exact .done text
  | cons stage stages ih =>
    cases stage with
    | operate op =>
      rw [goOn_operate]
      exact .operate (goesOn_next ih "" _)
    | homeUnlessHomed =>
      rw [goOn]
      split
      · rename_i homed
        exact .homed homed (ih text)
      · rename_i unhomed
        rw [Controller.begin_home]
        exact .homes (by simpa using unhomed)
    | awaitReady deadline =>
      rw [goOn]
      split
      · rename_i wait
        exact .sleeps wait
      · rename_i ready
        exact .awake ready (ih text)

/-! ## Events -/

/-- A turn is due: it has the controller, or its deadline is past. -/
inductive Due (turn : Turn) (now : Nat) : Bench.Event → Prop where
  | begins (ready : turn.activity = .ready) : Due turn now .proceed
  | wakes {time : Nat} (sleeping : turn.activity = .sleeping time) (past : time ≤ now) :
      Due turn now .wake

/-- A turn that is due waits for no answer. -/
theorem Due.ne_asking (h : turn.Due now e) (work : Work) : turn.activity ≠ .asking work := by
  cases h with
  | begins ready => simp [ready]
  | wakes sleeping => simp [sleeping]

/-- **What an event does to a turn in hand**, with the commands that are answered by it. -/
inductive Moved (turn : Turn) (c : Controller) (now : Nat) :
    Bench.Event → List (Gcode × Bool) → Controller → TurnState → Prop where
  | due {e : Bench.Event} {s : TurnState} (due : turn.Due now e)
      (goes : GoesOn c now "" [] turn.stages s) : Moved turn c now e [] c s
  | linked {work : Work} (asking : turn.activity = .asking work) (linking : work.linking = true)
      (text : String) :
      Moved turn c now (.answer (.ok text)) [] { c with linked := true }
        (.busy (.asking { work with linking := false }) turn.stages)
  | unlinked {work : Work} (asking : turn.activity = .asking work) (linking : work.linking = true)
      (f : Failure) : Moved turn c now (.answer (.error f)) [] c (.over (.error f))
  | failed {work : Work} (asking : turn.activity = .asking work) (asked : work.linking = false)
      (f : Failure) :
      Moved turn c now (.answer (.error f)) [(work.line, false)]
        { c with linked := c.linked && !f.isLinkLost } (.over (.error f))
  | onward {work : Work} (asking : turn.activity = .asking work) (asked : work.linking = false)
      {line : Gcode} {rest : List Gcode} (more : work.rest = line :: rest) (text : String) :
      Moved turn c now (.answer (.ok text)) [(work.line, true)] c
        (.busy (.asking { work with line, rest }) turn.stages)
  | legDone {work : Work} (asking : turn.activity = .asking work) (asked : work.linking = false)
      (last : work.rest = []) {text : String} {s : TurnState}
      (goes : GoesOn (c.track work.track) now text work.legs turn.stages s) :
      Moved turn c now (.answer (.ok text)) [(work.line, true)] (c.track work.track) s

/-- An answer, to whoever waits for it. -/
theorem moved_answered {work : Work} (asking : turn.activity = .asking work)
    (a : Except Failure String) :
    turn.Moved c now (.answer a) (turn.answers (.answer a)) (c.answered work a).1
      (after (c.answered work a).1 now turn.stages (c.answered work a).2) := by
  have taken := c.takes_answered work a
  have answers : turn.answers (.answer a) =
      if work.linking then [] else [(work.line, Bench.isOk a)] := by
    simp only [Turn.answers, asking, Work.ask]
    cases work.linking <;> rfl
  rw [answers]
  generalize (c.answered work a).1 = c', (c.answered work a).2 = progress at taken
  cases taken with
  | linked linking text =>
    rw [if_pos linking]
    exact .linked asking linking text
  | unlinked linking f =>
    rw [if_pos linking]
    exact .unlinked asking linking f
  | failed asked f =>
    rw [if_neg (by simp [asked])]
    exact .failed asking asked f
  | onward asked more text =>
    rw [if_neg (by simp [asked])]
    exact .onward asking asked more text
  | legDone asked last text =>
    rw [if_neg (by simp [asked])]
    exact .legDone asking asked last (goesOn_next (goesOn_goOn _ now · turn.stages) text _)

/-- **An event that moves a turn moves it in one of these ways.** -/
theorem moved_of_moved? (h : turn.moved? c now e = some (c', s)) :
    turn.Moved c now e (turn.answers e) c' s := by
  cases e with
  | proceed =>
    cases ready : turn.activity <;> simp only [moved?, ready, reduceCtorEq] at h
    cases h
    exact .due (.begins ready) (goesOn_goOn ..)
  | wake =>
    cases sleeping : turn.activity <;> simp only [moved?, sleeping, reduceCtorEq] at h
    split at h
    · rename_i past
      cases h
      exact .due (.wakes sleeping past) (goesOn_goOn ..)
    · cases h
  | answer a =>
    cases asking : turn.activity <;> simp only [moved?, asking, reduceCtorEq] at h
    cases h
    exact moved_answered asking a
  | _ => cases h

theorem moved?_settings (h : turn.moved? c now e = some (c', s)) : c'.settings = c.settings := by
  have moved := moved_of_moved? h
  generalize turn.answers e = sent at moved
  cases moved with
  | legDone => exact c.track_settings _
  | _ => rfl

end Stylus.Turn
