import Stylus.Proofs.Link.Rounds
import Stylus.Proofs.Link.Starting

/-!
# Links that are started in time

A `Startup` is the start of a link with the stream that it writes to and a clock.  A schedule says
what happens on the stream, and when; whatever takes too long is given up, and with it the start.

* `Startup.step`, `Startup.after` — what a schedule makes of a start;
* `Startup.Rests` — **what may happen once it is over**: nothing more is written;
* `Startup.Underway` — **the invariant**: the commands that were sent are acknowledged, one after
  the other and in time, but for the last one;
* `Startup.Underway.event` — it is known at every event how far the start has come, see
  `Startup.Course`;
* `Startup.Underway.elapse_late` — and it fails when it is too late.

What comes in the very moment at which something must be over is in time.
-/

set_option autoImplicit false

namespace Stylus

open AckBuffer

/-! ## The start and the clock -/

/-- A link that is being started, the stream that it writes to, and the clock. -/
structure Startup where
  host : Start := {}
  /-- what the stream has not taken yet of the line that is being written, as for a `Port` -/
  writing : Option (List UInt8) := none
  /-- when the start has to be over -/
  finish : Option Nat := none
  now : Nat := 0
  /-- when the last line was out -/
  out : Nat := 0
  /-- what has happened on the stream, and when -/
  log : List (Nat × Happening) := []

namespace Startup

/-- The link and its stream. -/
def port (u : Startup) : Port :=
  { link := u.host.link, writing := u.writing }

/-- The start moves on, and lets something out. -/
def follow (u : Startup) (moved : Start × List Effect) : Startup :=
  let writing := if moved.1.link.current.isSome then u.writing else none
  { u with host := moved.1, writing := (moved.2.foldl Port.note { writing }).writing }

/-- Something happens on the stream, now. -/
def note (u : Startup) (happenings : List Happening) : Startup :=
  { u with log := u.log ++ happenings.map (u.now, ·) }

/-- What comes from the stream, or from the link itself.  Nobody else has the link yet, and what
takes too long is for the clock to say. -/
def isOfStream : Signal → Bool
  | .submit _ | .expired | .aborted => false
  | _ => true

/-- The stream takes some of what is left of a line. -/
def accept (u : Startup) (left : List UInt8) (count : Nat) : Startup :=
  { u with writing := some (left.drop count) }.note ((left.take count).map .sent)

/-- The line is out. -/
def flush (u : Startup) : Startup :=
  { u with writing := none, out := u.now }.note [.flushed]

/-- The link gets a signal. -/
def signal (u : Startup) (s : Signal) : Startup :=
  (u.follow (u.host.step s)).note (Port.reads u.host.link s)

/-- What an event does. -/
def event (u : Startup) : Port.Event → Startup
  | .accept count =>
    match u.writing with
    | some left => u.accept left count
    | none => u
  | .flushed => if u.writing = some [] then u.flush else u
  | .signal s => if isOfStream s && u.port.admits s then u.signal s else u

/-- Until when the outstanding command may take, once its line is out. -/
def due? (u : Startup) : Option Nat :=
  if u.port.admits .expired then u.host.link.limit.map (u.out + ·) else none

/-- The outstanding command is given up if it is due before `time`, unless the start is given up
first. -/
def expireCommand (u : Startup) (time : Nat) : Startup :=
  if u.due?.any (fun due => due < time && u.finish.all (due ≤ ·)) then
    u.follow (u.host.step .expired)
  else u

/-- The start is given up if it has to be over before `time`. -/
def expireStart (u : Startup) (time : Nat) : Startup :=
  if u.finish.any (· < time) then u.follow u.host.expire else u

/-- It is that late. -/
def atTime (u : Startup) (time : Nat) : Startup :=
  { u with now := time }

/-- Time passes. -/
def elapse (u : Startup) (time : Nat) : Startup :=
  ((u.expireCommand time).expireStart time).atTime time

/-- An event after some time. -/
def step (u : Startup) (x : Nat × Port.Event) : Startup :=
  (u.elapse (u.now + x.1)).event x.2

/-- Events, each some time after the one before. -/
def steps (u : Startup) (schedule : List (Nat × Port.Event)) : Startup :=
  schedule.foldl step u

/-- What becomes of the start of a link on a stream where this happens. -/
def after (limit finish : Option Nat) (limits : SpeedLimits) (schedule : List (Nat × Port.Event)) :
    Startup :=
  steps ({ finish : Startup }.follow (Start.begin limit limits)) schedule

end Startup

namespace Startup

variable {u : Startup}

theorem writing_of_failures {effects : List Effect}
    (h : ∀ e ∈ effects, ∃ (caller : Nat) (f : Failure), e = .reply caller (.error f)) (p : Port) :
    (effects.foldl Port.note p).writing = p.writing := by
  induction effects generalizing p with
  | nil => rfl
  | cons e effects ih =>
    obtain ⟨caller, f, rfl⟩ := h _ List.mem_cons_self
    exact ih (fun e he => h e (List.mem_cons_of_mem _ he)) _

/-- The start has failed. -/
def failed (u : Startup) (host : Start) : Startup :=
  { u with host, writing := none }

theorem follow_fails {moved : Start × List Effect} (h : Start.Fails moved) :
    u.follow moved = u.failed moved.1 := by
  rw [follow, writing_of_failures h.failures, h.gone.current]
  rfl

/-- Nothing is let out. -/
theorem follow_nil (host : Start) : u.follow (host, []) =
    { u with host, writing := if host.link.current.isSome then u.writing else none } :=
  rfl

/-- An answer is let out. -/
theorem follow_reply (host : Start) (caller : Nat) (result : Except Failure String) :
    u.follow (host, [.reply caller result]) =
      { u with host, writing := if host.link.current.isSome then u.writing else none } :=
  rfl

theorem note_nil (u : Startup) : u.note [] = u := by
  simp [note]

/-- Nothing is read with a signal. -/
theorem signal_unread {s : Signal} (unread : Port.reads u.host.link s = []) :
    u.signal s = u.follow (u.host.step s) := by
  rw [signal, unread, note_nil]

theorem signal_received (alive : u.host.link.alive = true) {lot : List UInt8} :
    u.signal (.received lot) = (u.follow (u.host.step (.received lot))).note [.read lot] := by
  rw [signal, Port.reads, if_pos alive]

/-! ## When it is over -/

/-- The start is over, one way or the other. -/
structure Ended (u : Startup) : Prop where
  phase : ∀ batch : Batch, u.host.phase ≠ .sending batch
  current : u.host.link.current = none
  queue : u.host.link.queue = []
  writing : u.writing = none

theorem ended_failed (u : Startup) {moved : Start × List Effect} (h : Start.Fails moved) :
    (u.failed moved.1).Ended := by
  refine ⟨fun batch hphase => ?_, h.gone.current, h.gone.queue, rfl⟩
  cases h.phase.symm.trans hphase

theorem Ended.expireCommand (h : u.Ended) (time : Nat) : u.expireCommand time = u := by
  have hdue : u.due? = none := by simp [due?, Port.admits, port, h.current]
  rw [Startup.expireCommand, hdue, if_neg (by simp)]

theorem Ended.expireStart (h : u.Ended) (time : Nat) : u.expireStart time = u := by
  have hexpire : u.host.expire = (u.host, []) := by
    rw [Start.expire]
    rcases hphase : u.host.phase with batch | _ | _
    · exact absurd hphase (h.phase batch)
    · rfl
    · rfl
  rw [Startup.expireStart, hexpire, follow_nil, h.current]
  split
  · rw [if_neg (by simp), ← h.writing]
  · rfl

theorem Ended.elapse (h : u.Ended) (time : Nat) : u.elapse time = u.atTime time := by
  rw [Startup.elapse, h.expireCommand, h.expireStart]

end Startup

/-- A link with nothing to do drops what it reads, or dies. -/
theorem Link.step_idle {link : Link} (current : link.current = none) (queue : link.queue = [])
    {s : Signal} (ofStream : Startup.isOfStream s = true) :
    ∃ alive : Bool, link.step s = ({ link with alive }, []) ∧
      (link.alive = false → alive = false) := by
  rcases halive : link.alive with _ | _
  · refine ⟨false, ?_, fun _ => rfl⟩
    rw [step_dead halive, Port.submitted_of_other (by rintro r rfl; cases ofStream), ← halive]
    rfl
  · rcases hf : s.failure? with _ | f
    · refine ⟨true, ?_, nofun⟩
      rcases s with r | _ | lot | _ | _ | reason | reason | _
      · cases ofStream
      · rw [step_take_nil halive queue, ← halive]
      · rw [step_drops current, ← halive]
      · cases ofStream
      all_goals cases hf
    · refine ⟨false, ?_, nofun⟩
      rw [step_fatal halive hf]
      simp [current, queue]

namespace Port

/-- All that happens with a signal is that something is read. -/
theorem reads_eq (link : Link) (s : Signal) :
    ∃ lots : List (List UInt8), reads link s = lots.map .read ∧
      (link.alive = false → lots = []) := by
  rw [reads.eq_def]
  split
  · rename_i lot
    split
    · rename_i alive
      exact ⟨[lot], rfl, fun dead => by rw [dead] at alive; cases alive⟩
    · exact ⟨[], rfl, fun _ => rfl⟩
  · exact ⟨[], rfl, fun _ => rfl⟩

end Port

namespace Startup

variable {u : Startup}

/-- **What may happen once a start is over**: the link reads, or dies. -/
structure Rests (u u' : Startup) : Prop where
  ended : u'.Ended
  phase : u'.host.phase = u.host.phase
  reads : ∃ idle : List (Nat × List UInt8), u'.log = u.log ++ idle.map (stamped .read)
  dead : u.host.link.alive = false → u'.host.link.alive = false ∧ u'.log = u.log

theorem Ended.refl (h : u.Ended) : u.Rests u :=
  ⟨h, rfl, ⟨[], by simp⟩, fun dead => ⟨dead, rfl⟩⟩

theorem Rests.trans {u' u'' : Startup} (h : u.Rests u') (h' : u'.Rests u'') : u.Rests u'' := by
  obtain ⟨idle, hidle⟩ := h.reads
  obtain ⟨idle', hidle'⟩ := h'.reads
  refine ⟨h'.ended, h'.phase.trans h.phase, ⟨idle ++ idle', ?_⟩, fun dead => ?_⟩
  · rw [hidle', hidle, List.append_assoc, List.map_append]
  · obtain ⟨dead', hlog⟩ := h.dead dead
    obtain ⟨dead'', hlog'⟩ := h'.dead dead'
    exact ⟨dead'', hlog'.trans hlog⟩

theorem Ended.event (h : u.Ended) (e : Port.Event) : u.Rests (u.event e) := by
  rcases e with count | _ | s
  · rw [Startup.event, h.writing]
    exact h.refl
  · rw [Startup.event, h.writing, if_neg nofun]
    exact h.refl
  · rw [Startup.event]
    split
    · rename_i hs
      obtain ⟨ofStream, -⟩ := Bool.and_eq_true_iff.1 hs
      obtain ⟨alive, hstep, hdead⟩ := Link.step_idle h.current h.queue ofStream
      obtain ⟨lots, hreads, hnone⟩ := Port.reads_eq u.host.link s
      rw [signal, Start.step_ended hstep h.phase, follow_nil, hreads]
      refine ⟨⟨h.phase, h.current, h.queue, ?_⟩, rfl, ⟨lots.map (u.now, ·), ?_⟩, fun dead => ?_⟩
      · simp [note, h.current]
      · simp [note, stamped, Function.comp_def]
      · exact ⟨hdead dead, by simp [note, hnone dead]⟩
    · exact h.refl

theorem Ended.atTime (h : u.Ended) (time : Nat) : u.Rests (u.atTime time) :=
  ⟨⟨h.phase, h.current, h.queue, h.writing⟩, rfl, ⟨[], (List.append_nil _).symm⟩,
    fun dead => ⟨dead, rfl⟩⟩

theorem Ended.step (h : u.Ended) (x : Nat × Port.Event) : u.Rests (u.step x) := by
  rw [Startup.step, h.elapse]
  have htime := h.atTime (u.now + x.1)
  exact htime.trans (htime.ended.event x.2)

theorem Ended.steps (h : u.Ended) (schedule : List (Nat × Port.Event)) :
    u.Rests (u.steps schedule) := by
  induction schedule generalizing u with
  | nil => exact h.refl
  | cons x schedule ih => exact (h.step x).trans (ih (h.step x).ended)

/-! ## While it is under way -/

/-- **Where a start stands with a command**, and what has happened for it. -/
inductive Stands (u : Startup) (command : String) : Round → Prop
  /-- it waits to be taken -/
  | waiting (idle : List (Nat × List UInt8)) (current : u.host.link.current = none)
      (queue : u.host.link.queue = [⟨0, command⟩]) (writing : u.writing = none) :
      Stands u command { idle }
  /-- the stream takes its line -/
  | writing (idle : List (Nat × List UInt8)) (sent : List (Nat × UInt8)) (left : List UInt8)
      (current : u.host.link.current = some ⟨0, command⟩) (queue : u.host.link.queue = [])
      (buffer : u.host.link.buffer = {}) (writing : u.writing = some left)
      (line : sent.map Prod.snd ++ left = (LinkRequest.mk 0 command).line) :
      Stands u command { idle, sent }
  /-- its line is out -/
  | listening (round : Round) (current : u.host.link.current = some ⟨0, command⟩)
      (queue : u.host.link.queue = []) (buffer : u.host.link.buffer = .gathered round.lots)
      (writing : u.writing = none) (out : round.out = some u.out)
      (line : round.bytes = (LinkRequest.mk 0 command).line) (silent : ¬SaysOk round.lots) :
      Stands u command round

theorem Stands.unanswered {command : String} {last : Round} (h : u.Stands command last) :
    last.Unanswered command := by
  have silent : ¬SaysOk [] := by simp [saysOk_iff, gathered, takeResponse, split]
  rcases h with _ | ⟨_, _, _, -, -, -, -, line⟩ | ⟨_, -, -, -, -, out, line, silent'⟩
  · exact ⟨List.nil_prefix, fun h => absurd rfl h, fun _ => rfl, silent⟩
  · exact ⟨⟨_, line⟩, fun h => absurd rfl h, fun _ => rfl, silent⟩
  · refine ⟨line ▸ List.prefix_rfl, fun _ => line, fun h => ?_, silent'⟩
    cases h.symm.trans out

variable {command : String} {last : Round}

/-- The command waits to be taken. -/
theorem Stands.of_free (h : u.Stands command last) (free : u.host.link.current = none) :
    u.host.link.queue = [⟨0, command⟩] ∧ u.writing = none ∧
      ∃ idle : List (Nat × List UInt8), last = { idle } := by
  rcases h with ⟨idle, -, queue, hw⟩ | ⟨_, _, _, current⟩ | ⟨_, current⟩
  · exact ⟨queue, hw, idle, rfl⟩
  · cases free.symm.trans current
  · cases free.symm.trans current

/-- The command has been taken. -/
theorem Stands.of_busy (h : u.Stands command last) (busy : u.host.link.current ≠ none) :
    u.host.link.current = some ⟨0, command⟩ ∧ u.host.link.queue = [] := by
  rcases h with ⟨_, free⟩ | ⟨_, _, _, current, queue⟩ | ⟨_, current, queue⟩
  · exact absurd free busy
  · exact ⟨current, queue⟩
  · exact ⟨current, queue⟩

/-- The stream takes the line of the command. -/
theorem Stands.of_writing (h : u.Stands command last) {left : List UInt8}
    (hw : u.writing = some left) :
    u.host.link.current ≠ none ∧ u.host.link.buffer = {} ∧
      ∃ (idle : List (Nat × List UInt8)) (sent : List (Nat × UInt8)), last = { idle, sent } ∧
        sent.map Prod.snd ++ left = (LinkRequest.mk 0 command).line := by
  rcases h with ⟨_, _, _, idle⟩ | ⟨idle, sent, _, current, _, buffer, hw', line⟩ |
    ⟨_, _, _, _, idle⟩
  · cases hw.symm.trans idle
  · cases hw.symm.trans hw'
    exact ⟨by simp [current], buffer, idle, sent, rfl, line⟩
  · cases hw.symm.trans idle

/-- The line of the command is out. -/
theorem Stands.of_listening (h : u.Stands command last) (busy : u.host.link.current ≠ none)
    (hw : u.writing = none) : u.host.link.buffer = .gathered last.lots ∧ last.out = some u.out ∧
      last.bytes = (LinkRequest.mk 0 command).line := by
  rcases h with ⟨_, free⟩ | ⟨_, _, _, _, _, _, hw', _⟩ | ⟨_, _, _, buffer, _, out, line, _⟩
  · exact absurd free busy
  · cases hw.symm.trans hw'
  · exact ⟨buffer, out, line⟩

/-- What has happened: the commands before `command` were acknowledged, one after the other, and
then there is what has happened for it. -/
structure Reached (limit finish : Option Nat) (commands : List String)
    (log : List (Nat × Happening)) (command : String) (rest : List String) (rounds : List Round)
    (last : Round) : Prop where
  acknowledged : ∃ before : List String, commands = before ++ command :: rest ∧
    List.Forall₂ (Round.Acknowledged limit finish) before rounds
  log : log = rounds.flatMap Round.log ++ last.log

/-- **A start under way.** -/
structure Underway (limit finish : Option Nat) (commands : List String) (u : Startup)
    (command : String) (rest : List String) (rounds : List Round) (last : Round) : Prop where
  reached : Reached limit finish commands u.log command rest rounds last
  phase : ∃ answers : List String, u.host.phase = .sending ⟨rest, answers⟩
  alive : u.host.link.alive = true
  limited : u.host.link.limit = limit
  finishes : u.finish = finish
  stands : u.Stands command last
  inTime : ¬last.Late limit finish u.now

/-- **Where a start is**: under way, or all commands were acknowledged, or one was not. -/
inductive Course (limit finish : Option Nat) (commands : List String) (u : Startup) : Prop
  | underway (command : String) (rest : List String) (rounds : List Round) (last : Round)
      (underway : Underway limit finish commands u command rest rounds last)
  | ready (rounds : List Round) (idle : List (Nat × List UInt8)) (ended : u.Ended)
      (phase : u.host.phase = .ready)
      (acknowledged : List.Forall₂ (Round.Acknowledged limit finish) commands rounds)
      (log : u.log = rounds.flatMap Round.log ++ idle.map (stamped .read))
  | failed (command : String) (rest : List String) (rounds : List Round) (last : Round)
      (ended : u.Ended) (phase : u.host.phase = .failed) (dead : u.host.link.alive = false)
      (reached : Reached limit finish commands u.log command rest rounds last)
      (unanswered : last.Unanswered command)

variable {limit finish : Option Nat} {commands rest : List String} {rounds : List Round}

/-- The stream takes some more of the line. -/
theorem Underway.accept (h : Underway limit finish commands u command rest rounds last)
    {left : List UInt8} (hw : u.writing = some left) (count : Nat) :
    ∃ last' : Round,
      Underway limit finish commands (u.accept left count) command rest rounds last' := by
  obtain ⟨busy, buffer, idle, sent, rfl, line⟩ := h.stands.of_writing hw
  obtain ⟨current, queue⟩ := h.stands.of_busy busy
  let last' : Round := { idle, sent := sent ++ (left.take count).map (u.now, ·) }
  have hline : last'.bytes ++ left.drop count = (LinkRequest.mk 0 command).line := by
    simp [last', Round.bytes, ← line, Function.comp_def]
  refine ⟨last', ⟨h.reached.acknowledged, ?_⟩, h.phase, h.alive, h.limited, h.finishes,
    .writing _ _ _ current queue buffer rfl hline, h.inTime⟩
  simp [accept, note, h.reached.log, last', Round.log, Round.early, stamped, Function.comp_def]

/-- The line is out. -/
theorem Underway.flushed (h : Underway limit finish commands u command rest rounds last)
    (hw : u.writing = some []) :
    ∃ last' : Round, Underway limit finish commands u.flush command rest rounds last' := by
  obtain ⟨busy, buffer, idle, sent, rfl, line⟩ := h.stands.of_writing hw
  obtain ⟨current, queue⟩ := h.stands.of_busy busy
  rw [List.append_nil] at line
  refine ⟨{ idle, sent, out := some u.now }, ⟨h.reached.acknowledged, ?_⟩, h.phase, h.alive,
    h.limited, h.finishes,
    .listening _ current queue buffer rfl rfl line h.stands.unanswered.silent, ?_⟩
  · simp [flush, note, h.reached.log, Round.log, Round.early]
  · rintro (late | ⟨_, ⟨⟩, ms, -, lt⟩)
    · exact h.inTime (.inl late)
    · exact absurd lt (Nat.not_lt_of_le (Nat.le_add_right _ _))

/-- The command is taken, and its line begins to be written. -/
theorem Underway.take (h : Underway limit finish commands u command rest rounds last)
    (free : u.host.link.current = none) :
    Underway limit finish commands (u.signal .take) command rest rounds last ∧
      (u.signal .take).writing = some (LinkRequest.mk 0 command).line := by
  obtain ⟨queue, -, idle, rfl⟩ := h.stands.of_free free
  rw [signal_unread rfl, Start.step_quiet (Link.step_take_cons h.alive free queue) rfl]
  exact ⟨⟨⟨h.reached.acknowledged, h.reached.log⟩, h.phase, h.alive, h.limited, h.finishes,
    .writing _ _ _ rfl rfl rfl rfl rfl, h.inTime⟩, rfl⟩

/-- Something is read before the command is taken. -/
theorem Underway.drops (h : Underway limit finish commands u command rest rounds last)
    (free : u.host.link.current = none) (lot : List UInt8) :
    ∃ last' : Round,
      Underway limit finish commands (u.signal (.received lot)) command rest rounds last' := by
  obtain ⟨queue, -, idle, rfl⟩ := h.stands.of_free free
  rw [signal_received h.alive, Start.step_quiet (Link.step_drops free) rfl, follow_nil]
  refine ⟨{ idle := idle ++ [(u.now, lot)] }, ⟨h.reached.acknowledged, ?_⟩, h.phase, h.alive,
    h.limited, h.finishes, .waiting _ free queue (by simp [note, free]), h.inTime⟩
  simp [note, h.reached.log, Round.log, Round.early, stamped]

/-- What is read is read for the command. -/
theorem Underway.log_hear (h : Underway limit finish commands u command rest rounds last)
    (lot : List UInt8) :
    u.log ++ [(u.now, .read lot)] = rounds.flatMap Round.log ++ (last.hear (u.now, lot)).log := by
  rw [Round.log_hear, ← List.append_assoc, ← h.reached.log]
  rfl

/-- Something is read that completes no answer. -/
theorem Underway.gathers (h : Underway limit finish commands u command rest rounds last)
    (busy : u.host.link.current ≠ none) (hw : u.writing = none) {lot : List UInt8}
    (incomplete : (u.host.link.buffer.push lot).takeResponse.1 = none) :
    Underway limit finish commands (u.signal (.received lot)) command
      rest rounds (last.hear (u.now, lot)) := by
  obtain ⟨current, queue⟩ := h.stands.of_busy busy
  obtain ⟨buffer, out, line⟩ := h.stands.of_listening busy hw
  have hpush : u.host.link.buffer.push lot = .gathered (last.hear (u.now, lot)).lots := by
    rw [Round.lots_hear, gathered_concat, buffer]
  have silent : ¬SaysOk (last.hear (u.now, lot)).lots := by
    rw [saysOk_iff, ← hpush, incomplete]
    exact Bool.false_ne_true
  rw [signal_received h.alive, Start.step_quiet (Link.step_gathers h.alive current incomplete) rfl,
    follow_nil]
  exact ⟨⟨h.reached.acknowledged, h.log_hear lot⟩, h.phase, h.alive, h.limited, h.finishes,
    .listening _ current queue hpush (by simp [note, hw]) out line silent, h.inTime⟩

/-- Something is read that completes an answer in time. -/
theorem Underway.acknowledged (h : Underway limit finish commands u command rest rounds last)
    (busy : u.host.link.current ≠ none) (hw : u.writing = none) {lot : List UInt8} {text : String}
    (complete : (u.host.link.buffer.push lot).takeResponse.1 = some text) :
    (last.hear (u.now, lot)).Acknowledged limit finish command := by
  obtain ⟨buffer, out, line⟩ := h.stands.of_listening busy hw
  refine ⟨line, ?_, ?_, u.out, u.now, out, by simp [Round.hear], fun ms hms => ?_,
    fun moment hmoment => ?_⟩
  · rw [Round.lots_hear, saysOk_iff, gathered_concat, ← buffer, complete]
    rfl
  · rw [Round.lots_hear, List.dropLast_concat]
    exact h.stands.unanswered.silent
  · exact Nat.le_of_not_lt fun lt => h.inTime (.inr ⟨u.out, out, ms, hms, lt⟩)
  · exact Nat.le_of_not_lt fun lt => h.inTime (.inl ⟨moment, hmoment, lt⟩)

/-- With it, all commands through this one are acknowledged. -/
theorem Underway.acknowledged_through
    (h : Underway limit finish commands u command rest rounds last)
    (busy : u.host.link.current ≠ none) (hw : u.writing = none) {lot : List UInt8} {text : String}
    (complete : (u.host.link.buffer.push lot).takeResponse.1 = some text) :
    ∃ before : List String, commands = before ++ command :: rest ∧
      List.Forall₂ (Round.Acknowledged limit finish) (before ++ [command])
        (rounds ++ [last.hear (u.now, lot)]) := by
  obtain ⟨before, hcommands, hrounds⟩ := h.reached.acknowledged
  exact ⟨before, hcommands, List.rel_append hrounds (.cons (h.acknowledged busy hw complete) .nil)⟩

/-- **The last command is acknowledged**, and the link is ready. -/
theorem Underway.answered_last (h : Underway limit finish commands u command [] rounds last)
    (busy : u.host.link.current ≠ none) (hw : u.writing = none) {lot : List UInt8} {text : String}
    (complete : (u.host.link.buffer.push lot).takeResponse.1 = some text) :
    (u.host.step (.received lot)).1.phase = .ready ∧
      Course limit finish commands (u.signal (.received lot)) := by
  obtain ⟨current, queue⟩ := h.stands.of_busy busy
  obtain ⟨answers, phase⟩ := h.phase
  obtain ⟨before, hcommands, hall⟩ := h.acknowledged_through busy hw complete
  have hstep := Start.step_answered (Link.step_answered h.alive current complete) phase rfl
  rw [signal_received h.alive, hstep]
  refine ⟨rfl, .ready _ [] ⟨nofun, rfl, queue, rfl⟩ rfl (hcommands ▸ hall) ?_⟩
  rw [List.map_nil, List.append_nil, List.flatMap_append, List.flatMap_singleton, ← h.log_hear]
  rfl

/-- **A command is acknowledged**, and the next one is asked for. -/
theorem Underway.answered_next {next : String}
    (h : Underway limit finish commands u command (next :: rest) rounds last)
    (busy : u.host.link.current ≠ none) (hw : u.writing = none) {lot : List UInt8} {text : String}
    (complete : (u.host.link.buffer.push lot).takeResponse.1 = some text) :
    Underway limit finish commands (u.signal (.received lot)) next
        rest (rounds ++ [last.hear (u.now, lot)]) {} ∧
      (u.signal (.received lot)).host.link.current = none := by
  obtain ⟨current, queue⟩ := h.stands.of_busy busy
  obtain ⟨answers, phase⟩ := h.phase
  obtain ⟨before, hcommands, hall⟩ := h.acknowledged_through busy hw complete
  have hround : ¬({} : Round).Late limit finish u.now := by
    rintro (late | ⟨_, ⟨⟩, -⟩)
    exact h.inTime (.inl late)
  have hstep := Start.step_answered (Link.step_answered h.alive current complete) phase rfl
  rw [signal_received h.alive, hstep, Start.goOn_next]
  · rw [List.append_nil, follow_reply]
    refine ⟨⟨⟨⟨before ++ [command], ?_, hall⟩, ?_⟩, ⟨text :: answers, rfl⟩, h.alive, h.limited,
      h.finishes, .waiting [] rfl ?_ rfl, hround⟩, rfl⟩
    · rw [hcommands, List.append_assoc]
      rfl
    · rw [List.flatMap_append, List.flatMap_singleton, ← h.log_hear]
      exact (List.append_nil _).symm
    · simp [note, queue]
  · exact h.alive

/-- The start fails. -/
theorem Underway.failed (h : Underway limit finish commands u command rest rounds last)
    {moved : Start × List Effect} (fails : Start.Fails moved) :
    Course limit finish commands (u.failed moved.1) :=
  .failed command rest rounds last (ended_failed u fails) fails.phase fails.gone.dead h.reached
    h.stands.unanswered

/-- The link dies, and the start fails. -/
theorem Underway.fails (h : Underway limit finish commands u command rest rounds last) {s : Signal}
    {f : Failure} (hf : s.failure? = some f) : Start.Fails (u.host.step s) := by
  obtain ⟨answers, phase⟩ := h.phase
  have hstep := Link.step_fatal h.alive hf
  by_cases free : u.host.link.current = none
  · obtain ⟨queue, -⟩ := h.stands.of_free free
    rw [free, queue] at hstep
    exact Start.fails_step phase hstep (.inr ⟨rfl, rfl, rfl⟩)
  · obtain ⟨current, queue⟩ := h.stands.of_busy free
    rw [current, queue] at hstep
    exact Start.fails_step phase hstep (.inr ⟨rfl, rfl, rfl⟩)

/-- Something is read. -/
theorem Underway.received (h : Underway limit finish commands u command rest rounds last)
    (hw : u.writing = none) (lot : List UInt8) :
    Course limit finish commands (u.signal (.received lot)) := by
  by_cases free : u.host.link.current = none
  · obtain ⟨last', h'⟩ := h.drops free lot
    exact .underway _ _ _ _ h'
  · rcases hresponse : (u.host.link.buffer.push lot).takeResponse.1 with _ | text
    · exact .underway _ _ _ _ (h.gathers free hw hresponse)
    · rcases rest with _ | ⟨next, rest⟩
      · exact (h.answered_last free hw hresponse).2
      · exact .underway _ _ _ _ (h.answered_next free hw hresponse).1

/-- **Whatever happens to a start under way, it is known how far it has come.** -/
theorem Underway.event (h : Underway limit finish commands u command rest rounds last)
    (e : Port.Event) : Course limit finish commands (u.event e) := by
  have same : Course limit finish commands u := .underway _ _ _ _ h
  rcases e with count | _ | s <;> rw [Startup.event] <;> split
  · rename_i left hw
    obtain ⟨last', h'⟩ := h.accept hw count
    exact .underway _ _ _ _ h'
  · exact same
  · obtain ⟨last', h'⟩ := h.flushed ‹_›
    exact .underway _ _ _ _ h'
  · exact same
  · rename_i hs
    obtain ⟨ofStream, admitted⟩ := Bool.and_eq_true_iff.1 hs
    rcases hf : s.failure? with _ | f
    · rcases s with r | _ | lot | _ | _ | reason | reason | _
      · cases ofStream
      · exact .underway _ _ _ _ (h.take (by simpa [Port.admits, port] using admitted)).1
      · exact h.received (by simpa [Port.admits, port] using admitted) lot
      · cases ofStream
      all_goals cases hf
    · have hreads : Port.reads u.host.link s = [] := by
        rcases s with _ | _ | _ | _ | _ | _ | _ | _ <;> first | rfl | cases hf
      have fails := h.fails hf
      rw [signal_unread hreads, follow_fails fails]
      exact h.failed fails
  · exact same

/-! ## Time -/

theorem Underway.due?_eq (h : Underway limit finish commands u command rest rounds last) :
    u.due? = last.out.bind fun out => limit.map (out + ·) := by
  rw [due?, ← h.limited]
  rcases h.stands with ⟨_, current⟩ | ⟨_, _, _, -, -, -, hw⟩ | ⟨_, current, -, -, hw, out⟩
  · simp [Port.admits, port, current]
  · simp [Port.admits, port, hw]
  · rcases hlimit : u.host.link.limit with _ | ms
    · simp [Port.admits, port, hlimit]
    · simp [Port.admits, port, current, hw, hlimit, out]

theorem Underway.elapse_inTime (h : Underway limit finish commands u command rest rounds last)
    {time : Nat} (inTime : ¬last.Late limit finish time) : u.elapse time = u.atTime time := by
  have hcommand : u.expireCommand time = u := by
    rw [expireCommand, h.due?_eq, if_neg]
    rw [Option.any_eq_true]
    rintro ⟨due, hdue, hlt⟩
    obtain ⟨out, hout, hmap⟩ := Option.bind_eq_some_iff.1 hdue
    obtain ⟨ms, hms, rfl⟩ := Option.map_eq_some_iff.1 hmap
    exact inTime (.inr ⟨out, hout, ms, hms, of_decide_eq_true (Bool.and_eq_true_iff.1 hlt).1⟩)
  have hstart : u.expireStart time = u := by
    rw [expireStart, h.finishes, if_neg]
    rw [Option.any_eq_true]
    rintro ⟨moment, hmoment, hlt⟩
    exact inTime (.inl ⟨moment, hmoment, of_decide_eq_true hlt⟩)
  rw [elapse, hcommand, hstart]

theorem Underway.atTime (h : Underway limit finish commands u command rest rounds last) {time : Nat}
    (inTime : ¬last.Late limit finish time) :
    Underway limit finish commands (u.atTime time) command rest rounds last := by
  refine ⟨h.reached, h.phase, h.alive, h.limited, h.finishes, ?_, inTime⟩
  rcases h.stands with ⟨_, current, queue, hw⟩ | ⟨_, _, _, current, queue, buffer, hw, line⟩ |
    ⟨_, current, queue, buffer, hw, out, line, silent⟩
  · exact .waiting _ current queue hw
  · exact .writing _ _ _ current queue buffer hw line
  · exact .listening _ current queue buffer hw out line silent

/-- The outstanding command takes too long, and the start fails. -/
theorem Underway.expires (h : Underway limit finish commands u command rest rounds last)
    (due : u.due? ≠ none) : Start.Fails (u.host.step .expired) := by
  have admitted : u.port.admits .expired = true := by
    by_contra hnot
    exact due (if_neg hnot)
  obtain ⟨-, ⟨r, current⟩, ms, hlimit⟩ := Port.of_admits_expired admitted
  obtain ⟨answers, phase⟩ := h.phase
  obtain ⟨busy, -⟩ := h.stands.of_busy fun free => by cases free.symm.trans current
  cases busy.symm.trans current
  exact Start.fails_step phase (Link.step_expired h.alive busy hlimit) (.inl h.alive)

/-- **What takes too long is given up**, and with it the start. -/
theorem Underway.elapse_late (h : Underway limit finish commands u command rest rounds last)
    {time : Nat} (late : last.Late limit finish time) :
    ∃ moved : Start × List Effect, Start.Fails moved ∧
      u.elapse time = (u.failed moved.1).atTime time := by
  obtain ⟨answers, phase⟩ := h.phase
  rw [elapse, expireCommand]
  split
  · rename_i hdue
    have fails := h.expires fun hnone => by rw [hnone] at hdue; cases hdue
    refine ⟨_, fails, ?_⟩
    rw [follow_fails fails, (ended_failed u fails).expireStart]
  · rename_i hdue
    rw [expireStart]
    split
    · have fails := Start.fails_expire phase h.alive
      exact ⟨_, fails, by rw [follow_fails fails]⟩
    · rename_i hfinish
      rw [Option.any_eq_true, h.finishes] at hfinish
      have notOver (moment : Nat) (hmoment : finish = some moment) : ¬moment < time :=
        fun lt => hfinish ⟨moment, hmoment, decide_eq_true lt⟩
      rcases late with ⟨moment, hmoment, lt⟩ | ⟨out, hout, ms, hms, lt⟩
      · exact absurd lt (notOver moment hmoment)
      · rw [h.due?_eq, hout, hms, h.finishes] at hdue
        refine absurd ((Option.any_eq_true _ _).2 ⟨out + ms, rfl, ?_⟩) hdue
        refine Bool.and_eq_true_iff.2 ⟨decide_eq_true lt,
          (Option.all_eq_true _ _).2 fun moment hmoment => ?_⟩
        exact decide_eq_true (Nat.le_trans (Nat.le_of_lt lt)
          (Nat.le_of_not_lt (notOver moment hmoment)))

/-- When an event comes too late, the start has failed before it. -/
theorem Underway.step_late (h : Underway limit finish commands u command rest rounds last)
    (x : Nat × Port.Event) (late : last.Late limit finish (u.now + x.1)) :
    ∃ moved : Start × List Effect, Start.Fails moved ∧ (u.failed moved.1).Rests (u.step x) := by
  obtain ⟨moved, fails, helapse⟩ := h.elapse_late late
  have htime := (ended_failed u fails).atTime (u.now + x.1)
  refine ⟨moved, fails, ?_⟩
  rw [step, helapse]
  exact htime.trans (htime.ended.event x.2)

/-- It is known how far a start that is over has come. -/
theorem Course.rests {u' : Startup} (h : Course limit finish commands u) (rests : u.Rests u') :
    Course limit finish commands u' := by
  rcases h with ⟨_, _, _, _, underway⟩ | ⟨rounds, idle, ended, phase, acknowledged, log⟩ |
    ⟨command, rest, rounds, last, ended, phase, dead, reached, unanswered⟩
  · obtain ⟨answers, phase⟩ := underway.phase
    exact absurd (rests.phase.trans phase) (rests.ended.phase _)
  · obtain ⟨idle', hlog⟩ := rests.reads
    refine .ready rounds (idle ++ idle') rests.ended (rests.phase.trans phase) acknowledged ?_
    rw [hlog, log, List.append_assoc, List.map_append]
  · obtain ⟨dead', hlog⟩ := rests.dead dead
    exact .failed command rest rounds last rests.ended (rests.phase.trans phase) dead'
      (hlog ▸ reached) unanswered

end Startup

end Stylus
