import Stylus.Proofs.Link.Startup

/-!
# What comes of a start

A link is handed out exactly if all commands that make it ready are acknowledged in time.  What is
in time is settled by what would happen if nobody gave up: the same schedule, with no limit for a
command or for the start.

* `Startup.Beside` — **the two starts side by side**: they are alike until something takes too long,
  and what happens then in the one that goes on comes too late;
* `Startup.InTurn` — how far a start has come;
* `Startup.Underway.ready_of_prompt` — a plotter that answers at once has its link ready;
* `Startup.Underway.exists_ready` — a start that is not over can still come to a good end;
* `Startup.outcome` — **what comes of a start**, see `Startup.Outcome`.
-/

set_option autoImplicit false

namespace Stylus

open AckBuffer

namespace Startup

variable {u v : Startup}

/-! ## A start that nobody waits for -/

/-- The same, with nobody who waits for it. -/
def patient (u : Startup) : Startup :=
  { u with host := u.host.patient, finish := none }

/-- Nothing takes too long. -/
theorem elapse_patient (u : Startup) (time : Nat) :
    u.patient.elapse time = (u.atTime time).patient := by
  have hdue : u.patient.due? = none := by
    rw [due?]
    split <;> rfl
  rw [elapse, expireCommand, hdue]
  rfl

/-- What happens on the stream is the same. -/
theorem event_patient (u : Startup) (e : Port.Event) :
    u.patient.event e = (u.event e).patient := by
  have hwriting : u.patient.writing = u.writing := rfl
  rcases e with count | _ | s
  · rw [event, event, hwriting]
    rcases hw : u.writing with _ | _
    · rw [patient, hw]
    · rfl
  · rw [event, event, hwriting]
    split <;> rfl
  · by_cases ofStream : isOfStream s = true
    · have other : s ≠ .expired := by
        rintro rfl
        cases ofStream
      have hadmits : u.patient.port.admits s = u.port.admits s := by
        rcases s with _ | _ | _ | _ | _ | _ | _ | _ <;> first | rfl | cases ofStream
      have hreads : Port.reads u.patient.host.link s = Port.reads u.host.link s := by
        rcases s with _ | _ | _ | _ | _ | _ | _ | _ <;> rfl
      have hstep : u.patient.host.step s = ((u.host.step s).1.patient, (u.host.step s).2) :=
        u.host.step_patient other
      rw [event, event, hadmits, signal, signal, hreads, hstep]
      split <;> rfl
    · rw [event, event, if_neg (by simp [ofStream]), if_neg (by simp [ofStream])]

/-- A step is the same when nothing takes too long. -/
theorem step_patient {x : Nat × Port.Event}
    (inTime : u.elapse (u.now + x.1) = u.atTime (u.now + x.1)) :
    u.patient.step x = (u.step x).patient := by
  rw [step, step, elapse_patient, event_patient, inTime]
  rfl

/-! ## What happens, and when -/

theorem elapse_log (u : Startup) (time : Nat) : (u.elapse time).log = u.log := by
  have hstart (w : Startup) : (w.expireStart time).log = w.log := by
    rw [expireStart]
    split <;> rfl
  rw [elapse, atTime, hstart, expireCommand]
  split <;> rfl

theorem event_now (u : Startup) (e : Port.Event) : (u.event e).now = u.now := by
  rcases e with count | _ | s <;> rw [event] <;> split <;> rfl

theorem event_log (u : Startup) (e : Port.Event) :
    ∃ happenings : List Happening, (u.event e).log = u.log ++ happenings.map (u.now, ·) := by
  have hnothing : ∃ happenings : List Happening, u.log = u.log ++ happenings.map (u.now, ·) :=
    ⟨[], (List.append_nil _).symm⟩
  rcases e with count | _ | s <;> rw [event] <;> split
  · exact ⟨_, rfl⟩
  · exact hnothing
  · exact ⟨_, rfl⟩
  · exact hnothing
  · exact ⟨_, rfl⟩
  · exact hnothing

/-- What happens at an event, happens when its time has come. -/
theorem step_log (u : Startup) (x : Nat × Port.Event) : (u.step x).now = u.now + x.1 ∧
    ∃ happenings : List Happening,
      (u.step x).log = u.log ++ happenings.map (u.now + x.1, ·) := by
  refine ⟨event_now _ _, ?_⟩
  obtain ⟨happenings, hlog⟩ := (u.elapse (u.now + x.1)).event_log x.2
  refine ⟨happenings, ?_⟩
  rw [elapse_log] at hlog
  exact hlog

/-! ## The run -/

variable {limit finish : Option Nat} {commands rest : List String} {command : String}
  {rounds : List Round} {last : Round}

/-- **A start beside the same start with nobody who waits for it.**  They are alike until something
takes too long; what happens to the other one from then on happens too late. -/
inductive Beside (limit finish : Option Nat) (commands : List String) (u v : Startup) : Prop
  | alike (course : Course limit finish commands u) (same : v = u.patient)
  | late (command : String) (rest : List String) (rounds : List Round) (last : Round)
      (later : List (Nat × Happening)) (ended : u.Ended) (phase : u.host.phase = .failed)
      (dead : u.host.link.alive = false)
      (reached : Reached limit finish commands u.log command rest rounds last)
      (unanswered : last.Unanswered command) (log : v.log = u.log ++ later)
      (tooLate : ∀ x ∈ later, last.Late limit finish x.1) (now : last.Late limit finish v.now)

/-- A start under way goes on, or takes too long. -/
theorem Underway.beside (h : Underway limit finish commands u command rest rounds last)
    (x : Nat × Port.Event) : Beside limit finish commands (u.step x) (u.patient.step x) := by
  by_cases late : last.Late limit finish (u.now + x.1)
  · obtain ⟨moved, fails, rests⟩ := h.step_late x late
    obtain ⟨dead, hsame⟩ := rests.dead fails.gone.dead
    obtain ⟨hnow, happenings, hlog⟩ := u.patient.step_log x
    refine .late command rest rounds last (happenings.map (u.now + x.1, ·)) rests.ended
      (rests.phase.trans fails.phase) dead (hsame ▸ h.reached) h.stands.unanswered (hsame ▸ hlog)
      (fun y hy => ?_) (hnow ▸ late)
    obtain ⟨_, -, rfl⟩ := List.mem_map.1 hy
    exact late
  · have helapse := h.elapse_inTime late
    have hstep : u.step x = (u.atTime (u.now + x.1)).event x.2 := by rw [step, helapse]
    exact .alike (hstep ▸ (h.atTime late).event x.2) (step_patient helapse)

theorem Beside.step (h : Beside limit finish commands u v) (x : Nat × Port.Event) :
    Beside limit finish commands (u.step x) (v.step x) := by
  rcases h with ⟨course, rfl⟩ | ⟨command, rest, rounds, last, later, ended, phase, dead, reached,
    unanswered, log, tooLate, now⟩
  · have hcourse := course
    rcases course with ⟨_, _, _, _, underway⟩ | ⟨_, _, ended⟩ | ⟨_, _, _, _, ended⟩
    · exact underway.beside x
    · exact .alike (hcourse.rests (ended.step x)) (step_patient (ended.elapse _))
    · exact .alike (hcourse.rests (ended.step x)) (step_patient (ended.elapse _))
  · have rests := ended.step x
    obtain ⟨dead', hsame⟩ := rests.dead dead
    obtain ⟨hnow, happenings, hlog⟩ := v.step_log x
    have late := now.mono (Nat.le_add_right v.now x.1)
    refine .late command rest rounds last (later ++ happenings.map (v.now + x.1, ·)) rests.ended
      (rests.phase.trans phase) dead' (hsame ▸ reached) unanswered ?_ (fun y hy => ?_) (hnow ▸ late)
    · rw [hlog, log, hsame, List.append_assoc]
    · rcases List.mem_append.1 hy with hold | hnew
      · exact tooLate y hold
      · obtain ⟨_, -, rfl⟩ := List.mem_map.1 hnew
        exact late

theorem Beside.steps (h : Beside limit finish commands u v) (schedule : List (Nat × Port.Event)) :
    Beside limit finish commands (u.steps schedule) (v.steps schedule) := by
  induction schedule generalizing u v with
  | nil => exact h
  | cons x schedule ih => exact ih (h.step x)

theorem Beside.course (h : Beside limit finish commands u v) : Course limit finish commands u := by
  rcases h with ⟨course, -⟩ |
    ⟨command, rest, rounds, last, -, ended, phase, dead, reached, unanswered⟩
  · exact course
  · exact .failed command rest rounds last ended phase dead reached unanswered

/-- The commands that make a link ready. -/
def readying (limits : SpeedLimits) : List String :=
  (Gcode.initialization limits).map Gcode.text

/-- A start begins with the first of these commands. -/
theorem underway_begin (limit finish : Option Nat) (limits : SpeedLimits) :
    Underway limit finish (readying limits) (after limit finish limits []) Gcode.fanOff.text
      (readying limits).tail [] {} := by
  have hround : ¬({} : Round).Late limit finish 0 := by
    rintro (⟨moment, -, lt⟩ | ⟨_, ⟨⟩, -⟩)
    exact Nat.not_lt_zero moment lt
  exact ⟨⟨⟨[], rfl, .nil⟩, rfl⟩, ⟨[], rfl⟩, rfl, rfl, rfl, .waiting [] rfl rfl rfl, hround⟩

theorem beside_after (limit finish : Option Nat) (limits : SpeedLimits)
    (schedule : List (Nat × Port.Event)) :
    Beside limit finish (readying limits) (after limit finish limits schedule)
      (after none none limits schedule) :=
  Beside.steps (.alike (.underway _ _ _ _ (underway_begin limit finish limits)) rfl) schedule

/-! ## What comes of it -/

/-- **The link is ready exactly if all commands are acknowledged in time.** -/
theorem Beside.ready_iff (h : Beside limit finish commands u v) :
    u.host.phase = .ready ↔ ∃ rounds : List Round,
      List.Forall₂ (Round.Acknowledged limit finish) commands rounds ∧
        rounds.flatMap Round.log <+: v.log := by
  have hnot {command : String} {rest : List String} {rounds : List Round} {last : Round}
      {later : List (Nat × Happening)}
      (reached : Reached limit finish commands u.log command rest rounds last)
      (unanswered : last.Unanswered command) (log : v.log = u.log ++ later)
      (tooLate : ∀ x ∈ later, last.Late limit finish x.1) :
      ¬∃ rounds : List Round, List.Forall₂ (Round.Acknowledged limit finish) commands rounds ∧
        rounds.flatMap Round.log <+: v.log := by
    rintro ⟨rounds', all, first⟩
    obtain ⟨before, rfl, acknowledged⟩ := reached.acknowledged
    rw [log, reached.log] at first
    exact Round.not_all_acknowledged acknowledged unanswered tooLate all first
  rcases h with ⟨course, rfl⟩ | ⟨_, _, _, _, _, _, phase, _, reached, unanswered, log, tooLate, _⟩
  · have hlog : u.patient.log = u.log ++ [] := (List.append_nil _).symm
    rcases course with ⟨_, _, _, _, underway⟩ | ⟨rounds, idle, -, phase, acknowledged, log⟩ |
      ⟨_, _, _, _, -, phase, -, reached, unanswered⟩
    · obtain ⟨answers, phase⟩ := underway.phase
      rw [phase]
      exact iff_of_false nofun (hnot underway.reached underway.stands.unanswered hlog (by simp))
    · refine iff_of_true phase ⟨rounds, acknowledged, ?_⟩
      rw [hlog, log, List.append_nil]
      exact List.prefix_append _ _
    · rw [phase]
      exact iff_of_false nofun (hnot reached unanswered hlog (by simp))
  · rw [phase]
    exact iff_of_false nofun (hnot reached unanswered log tooLate)

/-- **How far a start has come.** -/
structure InTurn (limit finish : Option Nat) (commands : List String) (u : Startup)
    (rounds : List Round) (last : Round) : Prop where
  /-- what has happened are rounds, one after the other -/
  log : u.log = rounds.flatMap Round.log ++ last.log
  /-- all but the last one are those of commands that were acknowledged in time -/
  acknowledged : List.Forall₂ (Round.Acknowledged limit finish) (commands.take rounds.length) rounds
  /-- the last one is that of the next command, if there is one -/
  unanswered : ∀ command : String, commands[rounds.length]? = some command → last.Unanswered command
  done : commands[rounds.length]? = none → last.bytes = []
  /-- and it is not too late for it, or the start is over -/
  inTime : u.host.isOver = false → ¬last.Late limit finish u.now

theorem Reached.inTurn {log : List (Nat × Happening)}
    (h : Reached limit finish commands log command rest rounds last) :
    commands[rounds.length]? = some command ∧
      List.Forall₂ (Round.Acknowledged limit finish) (commands.take rounds.length) rounds := by
  obtain ⟨before, rfl, acknowledged⟩ := h.acknowledged
  rw [← acknowledged.length_eq]
  refine ⟨by simp, ?_⟩
  rw [List.take_left']
  · exact acknowledged
  · rfl

theorem Ended.isOver (h : u.Ended) : u.host.isOver = true := by
  rw [Start.isOver]
  split
  · exact absurd ‹_› (h.phase _)
  · rfl

theorem Underway.isOver (h : Underway limit finish commands u command rest rounds last) :
    u.host.isOver = false := by
  obtain ⟨answers, phase⟩ := h.phase
  rw [Start.isOver, phase]

theorem Course.inTurn (h : Course limit finish commands u) :
    ∃ (rounds : List Round) (last : Round), InTurn limit finish commands u rounds last := by
  rcases h with ⟨command, _, rounds, last, underway⟩ | ⟨rounds, idle, ended, -, acknowledged, log⟩ |
    ⟨command, _, rounds, last, ended, -, -, reached, unanswered⟩
  · obtain ⟨hnext, acknowledged⟩ := underway.reached.inTurn
    refine ⟨rounds, last, underway.reached.log, acknowledged, fun command' hcommand => ?_,
      fun hnone => ?_, fun _ => underway.inTime⟩
    · cases hnext.symm.trans hcommand
      exact underway.stands.unanswered
    · cases hnext.symm.trans hnone
  · refine ⟨rounds, { idle }, by simp [log, Round.log, Round.early], ?_, fun command hcommand => ?_,
      fun _ => rfl, fun hnot => ?_⟩
    · rw [← acknowledged.length_eq, List.take_length]
      exact acknowledged
    · rw [← acknowledged.length_eq, List.getElem?_length] at hcommand
      cases hcommand
    · cases hnot.symm.trans ended.isOver
  · obtain ⟨hnext, acknowledged⟩ := reached.inTurn
    refine ⟨rounds, last, reached.log, acknowledged, fun command' hcommand => ?_, fun hnone => ?_,
      fun hnot => ?_⟩
    · cases hnext.symm.trans hcommand
      exact unanswered
    · cases hnext.symm.trans hnone
    · cases hnot.symm.trans ended.isOver

/-- The bytes that are sent are those of the lines of the commands, in order. -/
theorem InTurn.sentBytes (h : InTurn limit finish commands u rounds last) :
    Round.sentBytes u.log <+: commands.flatMap fun command => (LinkRequest.mk 0 command).line := by
  rw [h.log, Round.sentBytes_append, Round.sentBytes_rounds h.acknowledged, Round.sentBytes_log]
  conv_rhs => rw [← List.take_append_drop rounds.length commands]
  rw [List.flatMap_append, List.prefix_append_right_inj]
  rcases hnext : commands[rounds.length]? with _ | command
  · rw [h.done hnext]
    exact List.nil_prefix
  · obtain ⟨hlt, hcommand⟩ := List.getElem?_eq_some_iff.1 hnext
    rw [List.drop_eq_getElem_cons hlt, hcommand, List.flatMap_cons]
    exact (h.unanswered command hnext).line.trans (List.prefix_append _ _)

/-! ## Starts that are not over -/

/-- A line that says `ok`, whatever was said before. -/
def okLine : List UInt8 :=
  Text.Utf8.encode "\nok\n"

theorem exists_takeResponse_okLine (buffer : AckBuffer) :
    ∃ text : String, (buffer.push okLine).takeResponse.1 = some text := by
  have hok : Acknowledges (['o', 'k'] ++ ['\n']) := .last (by decide) (by decide)
  have hpending : (buffer.push okLine).pending = buffer.pending ++ ['\n', 'o', 'k', '\n'] := by
    rw [pending_push, okLine]
    refine congrArg _ ?_
    decide +kernel
  rw [← Option.isSome_iff_exists, (buffer.push okLine).responds.isSome_iff, hpending]
  exact ⟨_, List.prefix_rfl, hok.append buffer.pending⟩

theorem steps_append (u : Startup) (schedule later : List (Nat × Port.Event)) :
    u.steps (schedule ++ later) = (u.steps schedule).steps later :=
  List.foldl_append

/-- An event at once. -/
theorem Underway.step_now (h : Underway limit finish commands u command rest rounds last)
    (e : Port.Event) : u.step (0, e) = u.event e := by
  rw [step, Nat.add_zero, h.elapse_inTime h.inTime]
  rfl

/-- The stream takes what is left of a line at once. -/
def writes (left : List UInt8) : List (Nat × Port.Event) :=
  [(0, .accept left.length), (0, .flushed)]

/-- A command is taken, and its line written, at once. -/
def asks (command : String) : List (Nat × Port.Event) :=
  (0, .signal .take) :: writes (LinkRequest.mk 0 command).line

/-- It is acknowledged. -/
def answers : List (Nat × Port.Event) :=
  [(0, .signal (.received okLine))]

/-- **Commands are sent and acknowledged**, all of them at once. -/
def prompt (commands : List String) : List (Nat × Port.Event) :=
  commands.flatMap fun command => asks command ++ answers

theorem prompt_cons (command : String) (commands : List String) :
    prompt (command :: commands) = asks command ++ (answers ++ prompt commands) :=
  List.append_assoc _ _ _

/-- A link with a command whose line is out. -/
def Listens (u : Startup) : Prop :=
  u.host.link.current ≠ none ∧ u.writing = none

theorem Underway.steps_answers (h : Underway limit finish commands u command rest rounds last)
    (hw : u.writing = none) (later : List (Nat × Port.Event)) :
    u.steps (answers ++ later) = (u.signal (.received okLine)).steps later := by
  rw [answers, List.singleton_append, steps, List.foldl_cons, h.step_now, Startup.event,
    if_pos (by simp [isOfStream, Port.admits, port, hw])]
  rfl

theorem Underway.listens_of_writing
    (h : Underway limit finish commands u command rest rounds last) {left : List UInt8}
    (hw : u.writing = some left) :
    (∃ last' : Round, Underway limit finish commands (u.steps (writes left)) command rest rounds
      last') ∧ (u.steps (writes left)).Listens := by
  have hw₁ : (u.accept left left.length).writing = some [] := congrArg some List.drop_length
  obtain ⟨last₁, h₁⟩ := h.accept hw left.length
  obtain ⟨last₂, h₂⟩ := h₁.flushed hw₁
  have hsteps : u.steps (writes left) = (u.accept left left.length).flush := by
    rw [steps, writes, List.foldl_cons, List.foldl_cons, List.foldl_nil, h.step_now,
      Startup.event, hw]
    dsimp only
    rw [h₁.step_now, Startup.event, if_pos hw₁]
  rw [hsteps]
  exact ⟨⟨last₂, h₂⟩, (h.stands.of_writing hw).1, rfl⟩

/-- A command that waits is taken, and the stream takes its line. -/
theorem Underway.listens_of_free
    (h : Underway limit finish commands u command rest rounds last)
    (free : u.host.link.current = none) :
    (∃ last' : Round, Underway limit finish commands (u.steps (asks command)) command rest rounds
      last') ∧ (u.steps (asks command)).Listens := by
  obtain ⟨h', hw⟩ := h.take free
  have hstep : u.step (0, .signal .take) = u.signal .take := by
    rw [h.step_now, Startup.event, if_pos (by simp [isOfStream, Port.admits, port, free])]
  rw [asks, steps, List.foldl_cons, hstep]
  exact h'.listens_of_writing hw

/-- If a link listens, and all is answered at once from then on, it becomes ready. -/
theorem Underway.ready_of_listens
    (h : Underway limit finish commands u command rest rounds last) (listens : u.Listens) :
    (u.steps (answers ++ prompt rest)).host.phase = .ready := by
  induction rest generalizing u command rounds last with
  | nil =>
    obtain ⟨busy, hw⟩ := listens
    obtain ⟨text, complete⟩ := exists_takeResponse_okLine u.host.link.buffer
    rw [h.steps_answers hw]
    exact (h.answered_last busy hw complete).1
  | cons next rest ih =>
    obtain ⟨busy, hw⟩ := listens
    obtain ⟨text, complete⟩ := exists_takeResponse_okLine u.host.link.buffer
    obtain ⟨h', free⟩ := h.answered_next busy hw complete
    obtain ⟨⟨last', h''⟩, listens⟩ := h'.listens_of_free free
    rw [h.steps_answers hw, prompt_cons, steps_append]
    exact ih h'' listens

/-- **A plotter that answers at once has its link ready.** -/
theorem Underway.ready_of_prompt
    (h : Underway limit finish commands u command rest rounds last)
    (free : u.host.link.current = none) :
    (u.steps (prompt (command :: rest))).host.phase = .ready := by
  obtain ⟨⟨last', h'⟩, listens⟩ := h.listens_of_free free
  rw [prompt_cons, steps_append]
  exact h'.ready_of_listens listens

theorem ready_prompt (limit finish : Option Nat) (limits : SpeedLimits) :
    (after limit finish limits (prompt (readying limits))).host.phase = .ready := by
  have hcommands : readying limits = Gcode.fanOff.text :: (readying limits).tail := rfl
  have hfree : (after limit finish limits []).host.link.current = none := rfl
  have hafter (schedule : List (Nat × Port.Event)) :
      after limit finish limits schedule = (after limit finish limits []).steps schedule := rfl
  rw [hafter, hcommands]
  exact (underway_begin limit finish limits).ready_of_prompt hfree

/-- **A start that is not over can still come to a good end**, and at once. -/
theorem Underway.exists_ready (h : Underway limit finish commands u command rest rounds last) :
    ∃ schedule : List (Nat × Port.Event), (∀ x ∈ schedule, x.1 = 0) ∧
      (u.steps schedule).host.phase = .ready := by
  have atOnce (commands : List String) : ∀ x ∈ prompt commands, x.1 = 0 := by
    intro x hx
    obtain ⟨command, -, hx⟩ := List.mem_flatMap.1 hx
    simp only [asks, writes, answers, List.cons_append, List.nil_append, List.mem_cons,
      List.not_mem_nil, or_false] at hx
    rcases hx with rfl | rfl | rfl | rfl <;> rfl
  by_cases free : u.host.link.current = none
  · exact ⟨_, atOnce (command :: rest), h.ready_of_prompt free⟩
  have hanswers : ∀ x ∈ answers ++ prompt rest, x.1 = 0 := by
    simpa [answers] using atOnce rest
  rcases hw : u.writing with _ | left
  · exact ⟨_, hanswers, h.ready_of_listens ⟨free, hw⟩⟩
  · obtain ⟨⟨last', h'⟩, listens⟩ := h.listens_of_writing hw
    refine ⟨writes left ++ (answers ++ prompt rest), ?_, ?_⟩
    · simpa [writes] using hanswers
    · rw [steps_append]
      exact h'.ready_of_listens listens

/-- **A start does not survive that the stream ends**, or cannot be read or written. -/
theorem Underway.isOver_broken (h : Underway limit finish commands u command rest rounds last)
    (delay : Nat) {s : Signal} (broken : s.failure? ≠ none) (ofStream : isOfStream s = true)
    (admitted : u.port.admits s = true) : (u.step (delay, .signal s)).host.isOver = true := by
  by_cases late : last.Late limit finish (u.now + delay)
  · obtain ⟨_, -, rests⟩ := h.step_late (delay, .signal s) late
    exact rests.ended.isOver
  · obtain ⟨f, hf⟩ := Option.ne_none_iff_exists'.1 broken
    have fails := (h.atTime late).fails hf
    have hsignal : (u.atTime (u.now + delay)).event (.signal s) =
        (u.atTime (u.now + delay)).signal s :=
      if_pos (Bool.and_eq_true_iff.2 ⟨ofStream, admitted⟩)
    rw [step, h.elapse_inTime late, hsignal, signal, follow_fails fails]
    exact (ended_failed u fails).isOver

/-! ## What comes of a start -/

/-- **What comes of the start of a link** that has to be over within `span`. -/
structure Outcome (limit : Option Nat) (span : Nat) (limits : SpeedLimits)
    (schedule : List (Nat × Port.Event)) (u : Startup) : Prop where
  /-- the bytes sent are the first ones of the lines that make a link ready -/
  bytes : Round.sentBytes u.log <+:
    (readying limits).flatMap fun command => (LinkRequest.mk 0 command).line
  /-- a line is begun only after all commands before it were acknowledged -/
  inTurn : ∃ (rounds : List Round) (last : Round),
    InTurn limit (some span) (readying limits) u rounds last
  /-- the link is handed out exactly if all are acknowledged in time, by what happens when nobody
  gives up -/
  ok_iff : u.host.result = .ok () ↔ ∃ rounds : List Round,
    List.Forall₂ (Round.Acknowledged limit (some span)) (readying limits) rounds ∧
      rounds.flatMap Round.log <+: (after none none limits schedule).log
  /-- a start begins, and is over well if the plotter acknowledges all commands at once -/
  begins : schedule = [] → u.host.isOver = false
  prompt : schedule = prompt (readying limits) → u.host.result = .ok ()
  /-- until the start is over the link can still become ready, and at once -/
  possible : u.host.isOver = false → ∃ later : List (Nat × Port.Event),
    (∀ x ∈ later, x.1 = 0) ∧ (u.steps later).host.result = .ok ()
  /-- the start is over in time, and at once if the stream breaks -/
  ended : span < u.now → u.host.isOver = true
  broken : ∀ (delay : Nat) (s : Signal), s.failure? ≠ none → isOfStream s = true →
    u.port.admits s = true → (u.step (delay, .signal s)).host.isOver = true
  /-- whatever else it comes to, there is no plotter, and nothing happens on the stream any more -/
  refused : u.host.isOver = true → u.host.result ≠ .ok () → ∀ later : List (Nat × Port.Event),
    (u.steps later).host.result = .error .noDevice ∧ (u.steps later).log = u.log

/-- **A link is handed out only when it is ready.**  Whatever happens on the stream, and
whenever: see `Outcome`. -/
theorem outcome (limit : Option Nat) (span : Nat) (limits : SpeedLimits)
    (schedule : List (Nat × Port.Event)) :
    Outcome limit span limits schedule (after limit (some span) limits schedule) := by
  have h := beside_after limit (some span) limits schedule
  obtain ⟨rounds, last, inTurn⟩ := h.course.inTurn
  have hbegin := underway_begin limit (some span) limits
  refine ⟨inTurn.sentBytes, ⟨rounds, last, inTurn⟩, ?_, ?_, ?_, fun hnot => ?_, fun lt => ?_,
    fun delay s broken ofStream admitted => ?_, fun isOver hresult later => ?_⟩
  · rw [Start.result_eq_ok]
    exact h.ready_iff
  · rintro rfl
    exact hbegin.isOver
  · rintro rfl
    exact Start.result_eq_ok.2 (ready_prompt limit (some span) limits)
  · rcases h.course with ⟨_, _, _, _, underway⟩ | ⟨_, _, ended⟩ | ⟨_, _, _, _, ended⟩
    · obtain ⟨later, atOnce, hready⟩ := underway.exists_ready
      exact ⟨later, atOnce, Start.result_eq_ok.2 hready⟩
    · cases hnot.symm.trans ended.isOver
    · cases hnot.symm.trans ended.isOver
  · by_contra hnot
    exact inTurn.inTime (by simpa using hnot) (.inl ⟨span, rfl, lt⟩)
  · rcases h.course with ⟨_, _, _, _, underway⟩ | ⟨_, _, ended⟩ | ⟨_, _, _, _, ended⟩
    · exact underway.isOver_broken delay broken ofStream admitted
    · exact (ended.step _).ended.isOver
    · exact (ended.step _).ended.isOver
  · rcases h.course with ⟨_, _, _, _, underway⟩ | ⟨_, _, _, phase⟩ |
      ⟨_, _, _, _, ended, phase, dead⟩
    · cases underway.isOver.symm.trans isOver
    · exact absurd (Start.result_eq_ok.2 phase) hresult
    · have rests := ended.steps later
      refine ⟨Start.result_eq_error ?_, (rests.dead dead).2⟩
      rw [rests.phase, phase]
      nofun

end Startup

end Stylus
