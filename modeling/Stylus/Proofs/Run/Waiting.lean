import Stylus.Proofs.Bench.Turns
import Stylus.Proofs.Run.Account

/-!
# How long a run can be kept waiting

A run waits for whoever has the controller, for those who asked for it before, for its own turn, and
between steps for nobody but itself.  None of this is endless: every stage takes only so many moves,
and the line is served in order.

* `Bench.advances` — an event that takes the run further, or what it waits for;
* `Turn.moves` — more moves than a turn can still make;
* `Bench.movesToRun` — the same for all turns up to that of the run;
* `Bench.movesToRun_move` — no event adds to it, and one that moves the holder takes from it;
* `Bench.exists_advance` — there is always something that takes the run further.

Guests who ask later stand behind the run, and guests who give up only shorten the line, so what
others do meanwhile does not matter.
-/

set_option autoImplicit false

namespace Stylus

/-! ## A turn -/

/-- No stage takes more moves than this. -/
def Stage.limit : Nat := 12

/-- The moves that legs take: their commands, and a link for each. -/
def Leg.moves : List Leg → Nat
  | [] => 0
  | leg :: legs => leg.lines.length + 1 + Leg.moves legs

/-- The moves that an operation under way still takes. -/
def Work.moves (work : Work) : Nat :=
  work.linking.toNat + 1 + work.rest.length + Leg.moves work.legs

/-- The moves that what a turn is doing still takes. -/
def Activity.moves : Activity → Nat
  | .asking work => work.moves
  | .ready | .sleeping _ => 1

/-- More moves than a turn can still make. -/
def Turn.moves (turn : Turn) : Nat :=
  turn.activity.moves + Stage.limit * turn.stages.length

theorem Activity.moves_pos (activity : Activity) : 0 < activity.moves := by
  cases activity with
  | asking work => simp only [moves, Work.moves]; omega
  | ready => exact Nat.one_pos
  | sleeping time => exact Nat.one_pos

theorem Turn.moves_pos (turn : Turn) : 0 < turn.moves :=
  Nat.lt_of_lt_of_le turn.activity.moves_pos (Nat.le_add_right _ _)

/-- An operation is over within the moves of a stage. -/
theorem Operation.moves_legs (settings : MotionSettings) (pose : Pose) (op : Operation) :
    Leg.moves (op.legs settings pose) ≤ Stage.limit := by
  have target (t : MoveTarget) : (Leg.moveTo settings t).lines.length ≤ 3 := by
    rw [Leg.moveTo]
    split <;> simp [Leg.lines]
  cases op with
  | moveTo t =>
    have ht := target t
    simp only [legs, Leg.moves, Stage.limit]
    omega
  | swipe start goal =>
    have first := target (.ofPoint start)
    have middle :=
      target ((MoveTarget.ofPoint (start.midpoint goal)).withStylus settings.swipeDepth)
    have last := target ((MoveTarget.ofPoint goal).withStylus (-settings.swipeDepth))
    simp only [legs, Leg.moves, Stage.limit]
    omega
  | load =>
    rw [legs]
    split <;> simp [Leg.moves, Leg.lines, Leg.moveAbsolute, Leg.moveRelative, Stage.limit]
  | _ =>
    simp [legs, Leg.moves, Leg.single, Leg.lines, Leg.moveAbsolute, Leg.moveRelative, Stage.limit]

/-- The moves that what a turn comes to still takes. -/
def TurnState.moves : TurnState → Nat
  | .busy activity stages => activity.moves + Stage.limit * stages.length
  | .over _ => 0

namespace Turn

theorem GoesOn.moves {c : Controller} {now : Nat} {text : String} {legs : List Leg}
    {stages : List Stage} {s : TurnState} (h : GoesOn c now text legs stages s) :
    s.moves ≤ Leg.moves legs + Stage.limit * stages.length := by
  induction h with
  | done | refused => exact Nat.zero_le _
  | asks =>
    have hlink := Bool.toNat_le (!c.linked)
    simp only [TurnState.moves, Activity.moves, Work.moves, Leg.moves, Leg.lines, List.length_cons]
    omega
  | @operate _ op _ _ _ ih =>
    have hlegs := op.moves_legs c.settings c.pose
    rw [List.length_cons, Nat.mul_succ]
    omega
  | homed _ _ ih | awake _ _ ih =>
    rw [List.length_cons, Nat.mul_succ]
    omega
  | homes =>
    have hlink := Bool.toNat_le (!c.linked)
    simp only [TurnState.moves, Activity.moves, Work.moves, Leg.moves, Stage.limit,
      List.length_cons, List.length_nil]
    omega
  | sleeps =>
    simp only [TurnState.moves, Activity.moves, Stage.limit, List.length_cons]
    omega

/-- An event that moves a turn brings it nearer to its end. -/
theorem moved?_moves {turn : Turn} {c c' : Controller} {now : Nat} {e : Bench.Event} {s : TurnState}
    (h : turn.moved? c now e = some (c', s)) : s.moves < turn.moves := by
  have moved := moved_of_moved? h
  generalize turn.answers e = sent at moved
  have hpos := turn.moves_pos
  rw [Turn.moves] at hpos ⊢
  cases moved with
  | due due goes =>
    have hgoes := goes.moves
    have hactivity := turn.activity.moves_pos
    rw [Leg.moves, Nat.zero_add] at hgoes
    omega
  | linked asking linking =>
    simp only [asking, linking, TurnState.moves, Activity.moves, Work.moves, Bool.toNat_false,
      Bool.toNat_true]
    omega
  | unlinked | failed => exact hpos
  | onward asking asked more =>
    simp only [asking, asked, more, TurnState.moves, Activity.moves, Work.moves, List.length_cons]
    omega
  | legDone asking asked last goes =>
    have hgoes := goes.moves
    simp only [asking, asked, last, Activity.moves, Work.moves]
    omega

end Turn

/-! ## The line -/

namespace Bench

/-- The moves of the turns up to the run's. -/
def movesUntilRun : List Turn → Nat
  | [] => 0
  | turn :: rest => turn.moves + if isRunTurn turn then 0 else movesUntilRun rest

/-- More moves than the turns up to the run's can still make. -/
def movesToRun (b : Bench) : Nat :=
  movesUntilRun b.line

theorem movesUntilRun_append {line : List Turn} (h : ∃ turn ∈ line, isRunTurn turn = true)
    (more : List Turn) : movesUntilRun (line ++ more) = movesUntilRun line := by
  induction line with
  | nil => simp at h
  | cons turn line ih =>
    rw [List.cons_append, movesUntilRun, movesUntilRun]
    cases hturn : isRunTurn turn with
    | true => rfl
    | false =>
      rw [ih]
      obtain ⟨t, ht, hrun⟩ := h
      rcases List.mem_cons.mp ht with rfl | ht
      · simp [hturn] at hrun
      · exact ⟨t, ht, hrun⟩

theorem movesUntilRun_filter {p : Turn → Bool}
    (keep : ∀ turn, isRunTurn turn = true → p turn = true) (line : List Turn) :
    movesUntilRun (line.filter p) ≤ movesUntilRun line := by
  induction line with
  | nil => exact Nat.le_refl _
  | cons turn line ih =>
    cases hp : p turn with
    | true =>
      rw [List.filter_cons_of_pos hp, movesUntilRun, movesUntilRun]
      split <;> omega
    | false =>
      have hturn : isRunTurn turn = false := by
        cases hrun : isRunTurn turn with
        | false => rfl
        | true => rw [keep turn hrun] at hp; cases hp
      rw [List.filter_cons_of_neg (by simp [hp]), movesUntilRun, hturn, if_neg Bool.false_ne_true]
      exact Nat.le_trans ih (Nat.le_add_left _ _)

theorem movesToRun_of_holder {b : Bench} {turn : Turn} (h : b.holder = some turn) :
    b.movesToRun = turn.moves + if isRunTurn turn then 0 else movesUntilRun b.waiting := by
  rw [movesToRun, line_of_holder h, movesUntilRun]

/-- While a step of the run is under way its turn is in the line. -/
theorem Sound.run_mem_line {b : Bench} (hs : b.Sound) (hw : b.working = true) :
    ∃ turn ∈ b.line, isRunTurn turn = true := by
  refine List.countP_pos_iff.mp ?_
  rw [hs.turns, hw]
  exact Nat.one_pos

theorem movesToRun_pos {b : Bench} (hs : b.Sound) (hw : b.working = true) : 0 < b.movesToRun := by
  obtain ⟨turn, hturn, -⟩ := hs.run_mem_line hw
  rw [movesToRun]
  cases hline : b.line with
  | nil => simp [hline] at hturn
  | cons first rest =>
    rw [movesUntilRun]
    exact Nat.lt_of_lt_of_le first.moves_pos (Nat.le_add_right _ _)

/-- **No event adds to what stands before the run, and one that moves the holder takes from it.** -/
theorem movesToRun_move {b b' : Bench} {e : Event} (hs : b.Sound) (hw : b.working = true)
    (hm : Move b e b') (hw' : b'.working = true) :
    b'.movesToRun + (b.moving? e).isSome.toNat ≤ b.movesToRun := by
  obtain ⟨run, hr, hp⟩ := working_iff.mp hw
  have boundary {run' : Run} (hr' : b.run = some run') : run'.phase ≠ .boundary := by
    obtain rfl := Option.some.inj (hr.symm.trans hr')
    simp [hp]
  -- an event that is nobody's turn changes the line only
  have still {e : Event} {b' : Bench} (holders : e.isHolders = false)
      (line : movesUntilRun b'.line ≤ movesUntilRun b.line) :
      b'.movesToRun + (b.moving? e).isSome.toNat ≤ b.movesToRun := by
    rw [moving?_eq_none holders]
    exact line
  cases hm with
  | idle _ moving =>
    rw [moving]
    exact Nat.le_refl _
  | pass span => exact still rfl (Nat.le_refl _)
  | start _ idle =>
    rw [hs.running, hr] at idle
    cases idle
  | wish _ wish =>
    refine still (Event.not_holders_of_wish wish).1 ?_
    rw [control, wakeRun_line]
    exact Nat.le_refl _
  | poll => exact still rfl (Nat.le_of_eq (congrArg _ (wakeRun_line b)))
  | queue guest stages =>
    refine still rfl (Nat.le_of_eq ?_)
    rw [line_queue hs.free, movesUntilRun_append (hs.run_mem_line hw)]
  | withdraw guest =>
    refine still rfl ?_
    have keep (turn : Turn) (hrun : isRunTurn turn = true) :
        (!Decidable.decide (turn.owner = guest.owner)) = true := by
      cases guest <;> simp_all [isRunTurn, Guest.owner]
    have hfilter := movesUntilRun_filter keep b.waiting
    cases hb : b.holder with
    | none => simpa [withdraw, line, hb] using hfilter
    | some turn =>
      simp only [withdraw, line, hb, Option.toList_some, List.singleton_append, movesUntilRun,
        ne_eq, decide_not]
      split <;> omega
  | @busy _ turn c activity stages moving =>
    obtain ⟨hb, hmoved⟩ := moving?_eq_some.mp moving
    have hless := Turn.moved?_moves hmoved
    have hmoves : Turn.moves { turn with activity, stages } < turn.moves := hless
    have hsame : isRunTurn { turn with activity, stages } = isRunTurn turn := rfl
    rw [moving, movesToRun_of_holder hb, movesToRun_of_holder rfl, hsame]
    simp only [Option.isSome_some, Bool.toNat_true]
    omega
  | @finish _ turn c result moving =>
    obtain ⟨hb, -⟩ := moving?_eq_some.mp moving
    by_cases owner : turn.owner = .run
    · -- the turn of the run is over, and with it the step
      have hr' : Bench.run { b with log := b.entries e ++ b.log, controller := c } = some run := hr
      rw [owner] at hw'
      cases result with
      | ok text =>
        rw [turnOver_run_ok hr', handOn_eq] at hw'
        cases hw'
      | error f =>
        rw [turnOver_run_error hr', handOn_eq] at hw'
        cases hw'
    · have hpos := turn.moves_pos
      have hline : (turnOver { b with log := b.entries e ++ b.log, controller := c }
          turn.owner result).line = b.waiting := by
        rw [turnOver_guest owner, handOn_eq]
        cases b.waiting <;> simp [line]
      rw [moving, movesToRun_of_holder hb, movesToRun, hline, isRunTurn]
      simp only [owner, decide_false, Option.isSome_some, Bool.toNat_true,
        if_neg Bool.false_ne_true]
      omega
  | stopped run_eq h => exact absurd h (boundary run_eq)
  | rest run_eq h => exact absurd h (boundary run_eq)
  | completed run_eq h => exact absurd h (boundary run_eq)
  | takeTurn begins | takeDone begins | takeFailed begins =>
    exact absurd (begins?_decide.mp begins).2.1 (boundary (begins?_decide.mp begins).1)

/-! ## Going on -/

/-- An event that takes the run further, or whatever it waits for. -/
def advances (b : Bench) (e : Event) : Bool :=
  match b.run with
  | none => false
  | some run =>
    match run.phase, e with
    | .working, e => (b.moving? e).isSome
    | .boundary, .decide => true
    | .resting time, .poll => time ≤ b.now
    | _, _ => false

/-- How many of the events take the run further. -/
def advancesIn (b : Bench) : List Event → Nat
  | [] => 0
  | e :: events => (b.advances e).toNat + (b.step e).advancesIn events

theorem advances_working {b : Bench} {run : Run} (hr : b.run = some run) (hp : run.phase = .working)
    (e : Event) : b.advances e = (b.moving? e).isSome := by
  simp only [advances, hr, hp]

theorem advances_boundary {b : Bench} {run : Run} (hr : b.run = some run)
    (hp : run.phase = .boundary) {e : Event} (he : e ≠ .decide) : b.advances e = false := by
  cases e <;> simp_all [advances]

/-- Nobody asks for anything, and nothing fails. -/
def Event.undisturbed : Event → Bool
  | .pass _ | .proceed | .wake | .answer (.ok _) | .decide | .poll => true
  | _ => false

/-- **A run is never stuck**: in time something takes it further, and nobody has to ask for it. -/
theorem exists_advance {b : Bench} (hs : b.Sound) {run : Run} (hr : b.run = some run) :
    ∃ (span : Nat) (e : Event),
      e.undisturbed = true ∧ (b.step (.pass span)).advances e = true := by
  cases hp : run.phase with
  | boundary => exact ⟨0, .decide, rfl, by simp [advances, step, hr, hp]⟩
  | resting time => exact ⟨time, .poll, rfl, by simp [advances, step, hr, hp]⟩
  | working =>
    obtain ⟨turn, hturn, -⟩ := hs.run_mem_line (working_iff.mpr ⟨run, hr, hp⟩)
    have advance (span : Nat) (e : Event)
        (h : ((b.step (.pass span)).moving? e).isSome = true) :
        (b.step (.pass span)).advances e = true := by
      rw [advances_working (show (b.step (.pass span)).run = some run from hr) hp]
      exact h
    cases hb : b.holder with
    | none => simp [line, hb, hs.free hb] at hturn
    | some holder =>
      cases ha : holder.activity with
      | ready =>
        exact ⟨0, .proceed, rfl, advance _ _ (by simp [moving?, step, hb, Turn.moved?, ha])⟩
      | asking work =>
        exact ⟨0, .answer (.ok ""), rfl, advance _ _ (by simp [moving?, step, hb, Turn.moved?, ha])⟩
      | sleeping time =>
        exact ⟨time, .wake, rfl, advance _ _ (by simp [moving?, step, hb, Turn.moved?, ha])⟩

/-- Once there is an end, the account keeps it. -/
theorem ended_foldl_watch {s : Bench × Account} (h : s.2.ended.isSome = true)
    (events : List Event) : (events.foldl watch s).2 = s.2 := by
  induction events generalizing s with
  | nil => rfl
  | cons e events ih =>
    have hnote : s.2.note s.1 e = s.2 := by rw [Account.note, if_pos h]
    rw [List.foldl_cons, ih (by rwa [watch, hnote]), watch, hnote]

/-- **A debt that is paid off by all that takes the run further bounds the run.**  `Inv` is what
holds of the bench until then, and `debt` is more than can still happen. -/
theorem ended_of_advances (Inv : Bench → Prop) (debt : Bench → Nat) (allowed : Event → Prop)
    (keep : ∀ (b : Bench) (e : Event), allowed e → Inv b →
      (b.ending? e).isSome = true ∨
        Inv (b.step e) ∧ debt (b.step e) + (b.advances e).toNat ≤ debt b)
    (pos : ∀ b : Bench, Inv b → 0 < debt b) {b : Bench} (hb : Inv b) {events : List Event}
    (all : ∀ e ∈ events, allowed e) (enough : debt b ≤ b.advancesIn events) (a : Account) :
    (events.foldl watch (b, a)).2.ended.isSome = true := by
  cases ha : a.ended with
  | some result =>
    have hsome : (b, a).2.ended.isSome = true := by rw [ha]; rfl
    rw [ended_foldl_watch hsome]
    exact hsome
  | none =>
    induction events generalizing b a with
    | nil => exact absurd enough (Nat.not_le.mpr (pos b hb))
    | cons e events ih =>
      have hnote : (a.note b e).ended = b.ending? e := by simp [Account.note, ha]
      rw [List.foldl_cons, watch]
      rcases keep b e (all e List.mem_cons_self) hb with hend | ⟨hinv, hdebt⟩
      · rw [ended_foldl_watch (by rw [hnote]; exact hend), hnote]
        exact hend
      · cases hend : b.ending? e with
        | some result =>
          rw [ended_foldl_watch (by rw [hnote, hend]; rfl), hnote, hend]
          rfl
        | none =>
          rw [advancesIn] at enough
          exact ih hinv (fun e' he' => all e' (List.mem_cons_of_mem _ he')) (by omega)
            _ (hnote.trans hend)

end Bench

end Stylus
