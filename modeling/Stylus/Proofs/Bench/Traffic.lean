import Stylus.Proofs.Bench.Sound
import Stylus.Proofs.Bench.Turns
import Stylus.Proofs.Motion.Guarded

/-!
# Everything that is sent

The record of the bench holds the commands of turns.  For a plotter other things count as well: what
it is sent when a link is made, and which commands come as one batch, that is, as one leg of an
operation.  `Traffic` is all that, watched from outside.

* `Traffic.note` — what a move of the bench adds to it;
* `Bench.batches` — everything sent along events, batch by batch;
* `Sent.Led` — a move of the head behind what has to precede it;
* `Bench.moves_led` — **every move of the head is so preceded**, whatever is asked for by whom and
  whatever fails.

The invariant is `Bench.Steered`: a plotter that is held to be homed has acknowledged homing, and
what is left of the batch under way is guarded for the mode that the batch has set so far.
-/

set_option autoImplicit false

namespace Stylus

/-! ## Traffic -/

/-- A command that has been sent. -/
structure Sent where
  line : Gcode
  acknowledged : Bool

/-- Everything sent, batch by batch. -/
structure Traffic where
  /-- the batches that are over, the first one first -/
  finished : List (List Sent) := []
  /-- what has been answered of the batch under way -/
  current : List Sent := []

namespace Traffic

/-- The first `n` commands that are sent while a link is made: one that shows that a plotter is
there, and those that make the link ready.  Each but the last has been acknowledged. -/
def ofLink (limits : SpeedLimits) (n : Nat) (made : Bool) : List Sent :=
  let lines := (Gcode.finish :: Gcode.initialization limits).take n
  lines.mapIdx fun i line => ⟨line, made || i + 1 < lines.length⟩

/-- Takes note of an answer: a link that is made or not made is a batch of its own, and a batch is
over with a bad answer or behind its last command. -/
def answered (t : Traffic) (limits : SpeedLimits) (n : Nat) (work : Work)
    (a : Except Failure String) : Traffic :=
  if work.linking then { t with finished := t.finished ++ [ofLink limits n (Bench.isOk a)] }
  else
    let batch := t.current ++ [⟨work.line, Bench.isOk a⟩]
    if Bench.isOk a && !work.rest.isEmpty then { t with current := batch }
    else { finished := t.finished ++ [batch] }

/-- Takes note of an event. -/
def note (t : Traffic) (limits : SpeedLimits) (n : Nat) (b : Bench) (e : Bench.Event) : Traffic :=
  match b.work?, e with
  | some work, .answer a => t.answered limits n work a
  | _, _ => t

end Traffic

namespace Bench

/-- The bench with the traffic along events; with each event goes how many commands are sent if it
makes a link, or fails to. -/
def watchTraffic (limits : SpeedLimits) (s : Bench × Traffic) (e : Event × Nat) : Bench × Traffic :=
  (s.1.step e.1, s.2.note limits e.2 s.1 e.1)

/-- The command that has been sent and is not yet answered. -/
def unanswered (b : Bench) : List Sent :=
  match b.work? with
  | some work => if work.linking then [] else [⟨work.line, false⟩]
  | none => []

/-- **Everything sent along events**, from the very beginning, batch by batch. -/
def batches (settings : MotionSettings) (limits : SpeedLimits) (events : List (Event × Nat)) :
    List (List Sent) :=
  let s := events.foldl (watchTraffic limits) (fresh settings, {})
  s.2.finished ++ [s.2.current ++ s.1.unanswered]

end Bench

/-! ## What precedes a move -/

/-- Homing has been acknowledged. -/
def Sent.Homed (sent : List Sent) : Prop :=
  ∃ s ∈ sent, s.line = .home ∧ s.acknowledged = true

/-- If the command moves the head, a mode has been set in its batch, of which `head` was sent before
it; and if the mode set last names positions, homing has been acknowledged. -/
def Sent.Led (earlier head : List Sent) (s : Sent) : Prop :=
  s.line.movesHead = true →
    (∃ m ∈ head, m.line.mode?.isSome = true) ∧
      (Gcode.lastMode? ((earlier ++ head).map Sent.line) = some .absolute →
        Sent.Homed (earlier ++ head))

/-- Every element of a list is as it should be behind those before it. -/
def Ordered {α : Type} (P : List α → α → Prop) (l : List α) : Prop :=
  ∀ (before : List α) (x : α) (after : List α), l = before ++ x :: after → P before x

namespace Ordered

variable {α : Type} {P : List α → α → Prop} {l : List α}

theorem nil : Ordered P [] := by
  intro before x after h
  simp at h

theorem concat (h : Ordered P l) {y : α} (hy : P l y) : Ordered P (l ++ [y]) := by
  intro before x after heq
  rcases List.eq_nil_or_concat after with rfl | ⟨after, z, rfl⟩
  · obtain ⟨rfl, hx⟩ := List.append_inj' heq rfl
    cases hx
    exact hy
  · have heq : l ++ [y] = (before ++ x :: after) ++ [z] := by simpa using heq
    exact h before x after (List.append_inj' heq rfl).1

end Ordered

/-- All commands of a batch are led. -/
def Sent.BatchLed (earlier : List (List Sent)) (batch : List Sent) : Prop :=
  Ordered (Sent.Led earlier.flatten) batch

/-- A batch that does not move the head. -/
theorem Sent.batchLed_of_still {batch : List Sent} (h : ∀ s ∈ batch, s.line.movesHead = false)
    (earlier : List (List Sent)) : Sent.BatchLed earlier batch := by
  rintro before x after rfl moves
  cases (h x (by simp)).symm.trans moves

theorem Traffic.still_ofLink (limits : SpeedLimits) (n : Nat) (made : Bool) :
    ∀ s ∈ ofLink limits n made, s.line.movesHead = false := by
  intro s hs
  obtain ⟨i, hi, rfl⟩ := List.mem_mapIdx.mp hs
  have hall : ∀ line ∈ Gcode.finish :: Gcode.initialization limits, line.movesHead = false := by
    simp [Gcode.initialization, Gcode.movesHead]
  exact hall _ (List.mem_of_mem_take (List.getElem_mem hi))

/-! ## The invariant -/

/-- What is left of an operation under way is guarded, for the mode set so far in its batch. -/
structure Work.Steered (work : Work) (homed : Bool) (current : List Sent) : Prop where
  /-- before a link is made nothing of the batch has been sent -/
  linking : work.linking = true → current = []
  leg : Gcode.Guarded homed (Gcode.lastMode? (current.map Sent.line)) (work.line :: work.rest)
  /-- only homing brings the head to the origin -/
  origin : work.track = .origin → work.line = .home ∧ work.rest = []
  legs : ∀ leg ∈ work.legs, leg.Guarded

/-- The operation under way, if there is one, is steered; otherwise no batch is. -/
def Steers (homed : Bool) (current : List Sent) : Option Work → Prop
  | some work => work.Steered homed current
  | none => current = []

/-- A leg that is begun is steered. -/
theorem Leg.Guarded.steered {leg : Leg} (h : leg.Guarded) {homed : Bool}
    (allowed : leg.needsHome = true → homed = true) {legs : List Leg}
    (hlegs : ∀ leg ∈ legs, leg.Guarded) (linking : Bool) :
    Work.Steered ⟨linking, leg.first, leg.others, leg.track, legs⟩ homed [] :=
  ⟨fun _ => rfl, h.lines.mono allowed, fun origin => List.cons.inj (h.origin origin), hlegs⟩

theorem Turn.GoesOn.steers {c : Controller} {now : Nat} {text : String} {legs : List Leg}
    {stages : List Stage} {s : TurnState} (h : GoesOn c now text legs stages s)
    (guarded : ∀ leg ∈ legs, leg.Guarded) : Steers c.pose.homed [] s.work? := by
  induction h with
  | asks allowed =>
    obtain ⟨hleg, hlegs⟩ := List.forall_mem_cons.mp guarded
    exact hleg.steered allowed hlegs _
  | @operate _ op _ _ _ ih => exact ih (op.guarded_legs _ _)
  | homed _ _ ih | awake _ _ ih => exact ih guarded
  | homes =>
    have hhome := Operation.home.guarded_legs c.settings c.pose _ (List.mem_singleton_self _)
    exact hhome.steered nofun (List.forall_mem_nil _) _
  | _ => rfl

namespace Traffic

/-- **What holds of everything sent**, while the plotter is held to be homed or not and an operation
is under way or none. -/
structure Steered (t : Traffic) (homed : Bool) (work : Option Work) : Prop where
  finished : Ordered Sent.BatchLed t.finished
  current : Sent.BatchLed t.finished t.current
  /-- a plotter that is held to be homed has acknowledged homing -/
  homing : homed = true → Sent.Homed (t.finished.flatten ++ t.current)
  work : Steers homed t.current work

namespace Steered

variable {t : Traffic} {homed : Bool} {work : Work}

/-- The command that an operation under way sends is led. -/
theorem led (h : t.Steered homed (some work)) (acknowledged : Bool) :
    Sent.Led t.finished.flatten t.current ⟨work.line, acknowledged⟩ := by
  have hwork : work.Steered homed t.current := h.work
  intro moves
  obtain ⟨hset, hhomed⟩ := hwork.leg.1 moves
  obtain ⟨mode, hmode⟩ := Option.isSome_iff_exists.mp hset
  obtain ⟨line, hline, hsets⟩ := Gcode.exists_of_lastMode? hmode
  obtain ⟨m, hm, rfl⟩ := List.mem_map.mp hline
  refine ⟨⟨m, hm, by rw [hsets]; rfl⟩, fun habsolute => ?_⟩
  -- the mode set last in the batch is the one set last at all
  rw [List.map_append, Gcode.lastMode?_append, hmode, Option.some_or] at habsolute
  exact h.homing (hhomed (hmode.trans habsolute))

/-- The batch with the command that is answered. -/
theorem batch (h : t.Steered homed (some work)) (acknowledged : Bool) :
    Sent.BatchLed t.finished (t.current ++ [⟨work.line, acknowledged⟩]) :=
  h.current.concat (h.led acknowledged)

/-- An answer while a link is being made. -/
theorem linking (h : t.Steered homed (some work)) (hl : work.linking = true) (limits : SpeedLimits)
    (n : Nat) (made : Bool) {work' : Option Work} (hwork : Steers homed [] work') :
    Steered { t with finished := t.finished ++ [ofLink limits n made] } homed work' := by
  have hwork' : work.Steered homed t.current := h.work
  have hnone := hwork'.linking hl
  refine ⟨h.finished.concat (Sent.batchLed_of_still (still_ofLink limits n made) _), ?_, ?_, ?_⟩
  · rw [hnone]
    exact .nil
  · intro hh
    refine (h.homing hh).imp fun s hs => ⟨?_, hs.2⟩
    rw [List.flatten_append]
    simp only [List.mem_append] at hs ⊢
    exact hs.1.imp .inl id
  · rw [hnone]
    exact hwork

/-- The end of a batch. -/
theorem closed (h : t.Steered homed (some work)) (acknowledged : Bool) {homed' : Bool}
    {work' : Option Work}
    (hhomed : homed' = true → homed = true ∨ work.line = .home ∧ acknowledged = true)
    (hwork : Steers homed' [] work') :
    Steered { finished := t.finished ++ [t.current ++ [⟨work.line, acknowledged⟩]] } homed'
      work' := by
  refine ⟨h.finished.concat (h.batch acknowledged), .nil, fun hh => ?_, hwork⟩
  simp only [List.flatten_append, List.flatten_singleton, List.append_nil]
  rcases hhomed hh with hh | ⟨hline, hack⟩
  · refine (h.homing hh).imp fun s hs => ⟨?_, hs.2⟩
    rw [← List.append_assoc]
    exact List.mem_append_left _ hs.1
  · exact ⟨⟨work.line, acknowledged⟩, by simp, hline, hack⟩

/-- A command that is acknowledged with others behind it in its leg. -/
theorem onward (h : t.Steered homed (some work)) (asked : work.linking = false) {line : Gcode}
    {rest : List Gcode} (more : work.rest = line :: rest) :
    Steered { t with current := t.current ++ [⟨work.line, true⟩] } homed
      (some { work with line, rest }) := by
  have hwork : work.Steered homed t.current := h.work
  refine ⟨h.finished, h.batch true, fun hh => ?_, fun hlink => ?_, ?_, fun origin => ?_, hwork.legs⟩
  · refine (h.homing hh).imp fun s hs => ⟨?_, hs.2⟩
    show s ∈ t.finished.flatten ++ (t.current ++ [⟨work.line, true⟩])
    rw [← List.append_assoc]
    exact List.mem_append_left _ hs.1
  · cases asked.symm.trans hlink
  · have hleg := hwork.leg.2
    rw [more] at hleg
    rw [List.map_append, List.map_singleton, Gcode.lastMode?_concat]
    exact hleg
  · -- homing is a leg of one command
    rw [(hwork.origin origin).2] at more
    cases more

end Steered

end Traffic

namespace Bench

theorem note_of_free {b : Bench} (free : b.work? = none) (t : Traffic) (limits : SpeedLimits)
    (n : Nat) (e : Event) : t.note limits n b e = t := by
  simp only [Traffic.note, free]

theorem note_answer {b : Bench} {work : Work} (hw : b.work? = some work) (t : Traffic)
    (limits : SpeedLimits) (n : Nat) (a : Except Failure String) :
    t.note limits n b (.answer a) = t.answered limits n work a := by
  simp only [Traffic.note, hw]

theorem note_of_idle {b : Bench} {e : Event} (idle : b.moving? e = none) (t : Traffic)
    (limits : SpeedLimits) (n : Nat) : t.note limits n b e = t := by
  cases hw : b.work? with
  | none => exact note_of_free hw t limits n e
  | some work =>
    cases e with
    | answer a =>
      -- an answer moves whoever waits for one
      obtain ⟨turn, hb, hact⟩ := Option.bind_eq_some_iff.mp hw
      simp [moving?, hb, Turn.moved?, Activity.work?_eq_some.mp hact] at idle
    | _ => simp only [Traffic.note, hw]

/-- A bench with everything sent as it should be. -/
def Steered (s : Bench × Traffic) : Prop :=
  s.2.Steered s.1.controller.pose.homed s.1.work?

theorem Steered.of_fresh (settings : MotionSettings) : Steered (fresh settings, {}) :=
  ⟨.nil, .nil, by rintro ⟨⟩, rfl⟩

/-- **Every event leaves everything sent as it should be.** -/
theorem Steered.step {s : Bench × Traffic} (h : Steered s) (hs : s.1.Sound) (limits : SpeedLimits)
    (e : Event × Nat) : Steered (watchTraffic limits s e) := by
  obtain ⟨b, t⟩ := s
  obtain ⟨e, n⟩ := e
  have h : t.Steered b.controller.pose.homed b.work? := h
  show (t.note limits n b e).Steered (b.step e).controller.pose.homed (b.step e).work?
  rcases step_work hs e with ⟨idle, hc, hw⟩ | ⟨turn, c, s, moving, hc, hw⟩ <;> rw [hc, hw]
  · rw [note_of_idle idle]
    exact h
  · obtain ⟨hb, moved⟩ := moving?_eq_some.mp moving
    have moved := Turn.moved_of_moved? moved
    generalize turn.answers e = sent at moved
    have noted {work : Work} (asking : turn.activity = .asking work) (a : Except Failure String) :
        t.Steered b.controller.pose.homed (some work) ∧
          t.note limits n b (.answer a) = t.answered limits n work a := by
      have hsome : b.work? = some work := by
        rw [work?_of_holder hb, asking]
        rfl
      exact ⟨hsome ▸ h, note_answer hsome t limits n a⟩
    cases moved with
    | due due goes =>
      have hfree : b.work? = none := by
        rw [work?_of_holder hb]
        cases due with
        | begins idle | wakes idle => rw [idle]; rfl
      rw [hfree] at h
      have hcurrent : t.current = [] := h.work
      rw [note_of_free hfree]
      refine ⟨h.finished, h.current, h.homing, ?_⟩
      rw [hcurrent]
      exact goes.steers (List.forall_mem_nil _)
    | @linked work asking linking text =>
      obtain ⟨h, hnote⟩ := noted asking (.ok text)
      have hwork : work.Steered b.controller.pose.homed t.current := h.work
      have hleg := hwork.leg
      rw [hwork.linking linking] at hleg
      rw [hnote, Traffic.answered, if_pos linking]
      exact h.linking linking limits n true ⟨by rintro ⟨⟩, hleg, hwork.origin, hwork.legs⟩
    | unlinked asking linking f =>
      obtain ⟨h, hnote⟩ := noted asking (.error f)
      rw [hnote, Traffic.answered, if_pos linking]
      exact h.linking linking limits n false rfl
    | failed asking asked f =>
      obtain ⟨h, hnote⟩ := noted asking (.error f)
      rw [hnote, Traffic.answered, if_neg (by simp [asked])]
      exact h.closed false .inl rfl
    | onward asking asked more text =>
      obtain ⟨h, hnote⟩ := noted asking (.ok text)
      rw [hnote, Traffic.answered, if_neg (by simp [asked]), more]
      exact h.onward asked more
    | @legDone work asking asked last text s goes =>
      obtain ⟨h, hnote⟩ := noted asking (.ok text)
      have hwork : work.Steered b.controller.pose.homed t.current := h.work
      rw [hnote, Traffic.answered, if_neg (by simp [asked]), last]
      refine h.closed true (fun hh => ?_) (goes.steers hwork.legs)
      rw [Controller.track_pose] at hh
      exact (Pose.homed_after.mp hh).imp_right fun origin => ⟨(hwork.origin origin).1, rfl⟩

theorem Steered.foldl {s : Bench × Traffic} (h : Steered s) (hs : s.1.Sound) (limits : SpeedLimits)
    (events : List (Event × Nat)) : Steered (events.foldl (watchTraffic limits) s) := by
  induction events generalizing s with
  | nil => exact h
  | cons e events ih => exact ih (h.step hs limits e) (hs.step_event e.1)

/-- The command that is not yet answered is led as well. -/
theorem Steered.unanswered {s : Bench × Traffic} (h : Steered s) :
    Sent.BatchLed s.2.finished (s.2.current ++ s.1.unanswered) := by
  rw [Steered] at h
  rw [Bench.unanswered]
  cases hw : s.1.work? with
  | none =>
    rw [List.append_nil]
    exact h.current
  | some work =>
    rw [hw] at h
    cases hl : work.linking with
    | true => simpa [hl] using h.current
    | false => simpa [hl] using h.batch false

/-- **No move of the head without its mode, and none to a position before homing.**  Whatever is
asked for by clients, operators and runs, and whatever fails, links included: of everything sent,
every move that names an axis of the head comes behind a command of its own batch that sets the
mode; and if the mode set last before it names positions, homing was acknowledged before it. -/
theorem moves_led {settings : MotionSettings} {limits : SpeedLimits} {events : List (Event × Nat)}
    {before after : List (List Sent)} {head tail : List Sent} {s : Sent}
    (sent : batches settings limits events = before ++ (head ++ s :: tail) :: after)
    (moves : s.line.movesHead = true) :
    (∃ m ∈ head, m.line.mode?.isSome = true) ∧
      (Gcode.lastMode? ((before.flatten ++ head).map Sent.line) = some .absolute →
        ∃ h ∈ before.flatten ++ head, h.line = .home ∧ h.acknowledged = true) := by
  have h := (Steered.of_fresh settings).foldl (.of_fresh settings) limits events
  have hall : Ordered Sent.BatchLed (batches settings limits events) :=
    h.finished.concat h.unanswered
  exact hall _ _ _ sent _ _ _ rfl moves

/-- A plotter is homed, and then moved to a position; the link is broken meanwhile. -/
def homedAndMoved : List (Event × Nat) :=
  [(.queue .operator [.operate .home, .operate (.moveAbsolute .x 1)], 0), (.proceed, 0),
    (.answer (.ok ""), 6), (.answer (.ok "ok"), 0), (.answer (.error (.io "closed")), 0),
    (.queue .operator [.operate (.moveAbsolute .x 1)], 0), (.proceed, 0),
    (.answer (.ok ""), 6), (.answer (.ok "ok"), 0)]

theorem moves_led_homedAndMoved :
    ∃ (before : List (List Sent)) (head : List Sent) (s : Sent),
      batches {} {} homedAndMoved = before ++ (head ++ [s]) :: [] ∧ s.line.movesHead = true ∧
        Gcode.lastMode? ((before.flatten ++ head).map Sent.line) = some .absolute ∧
        ∃ h ∈ before.flatten ++ head, h.line = .home ∧ h.acknowledged = true := by
  refine ⟨(batches {} {} homedAndMoved).take 4, [⟨.absolute, true⟩], ⟨.move [(.x, 1)] none, false⟩,
    rfl, rfl, rfl, ?_⟩
  exact (@moves_led {} {} homedAndMoved _ [] _ [] _ rfl rfl).2 rfl

end Bench

end Stylus
