import Stylus.Proofs.Link.Exchanges

/-!
# A link that is lost, and one that is not

A link dies when its other end is gone, or when it cannot be read from or written to, and then it is
dead for good.  It does not die of a command that takes too long.

* `Port.step_dead`, `Port.steps_dead` — **a dead link does nothing but refuse**, whatever happens;
* `Port.Lost` — how it goes with a link that dies;
* `Port.alive_of_steps` — what it takes for a link to stay alive;
* `Port.steps_served` — a link that is alive serves all requests that wait, if they are answered;
* `Port.Kept` — how it goes with a link that nothing has broken;
* `Port.lost_or_kept` — **it goes one way or the other**, at any time.
-/

set_option autoImplicit false

namespace Stylus

namespace Port

/-- The requests that come in with an event. -/
def Event.requests : Event → List LinkRequest
  | .signal s => submitted s
  | _ => []

/-- The failure that an event means for the link, if any. -/
def Event.failure? : Event → Option Failure
  | .signal s => s.failure?
  | _ => none

variable {p : Port} {s : Signal}

theorem steps_cons (p : Port) (e : Event) (events : List Event) :
    p.steps (e :: events) = (p.step e).steps events :=
  List.foldl_cons

theorem steps_append (p : Port) (events later : List Event) :
    p.steps (events ++ later) = (p.steps events).steps later :=
  List.foldl_append

/-! ## Dead links -/

/-- A request can always be made. -/
theorem submitted_of_not_admits (h : p.admits s ≠ true) : submitted s = [] := by
  refine submitted_of_other ?_
  rintro r rfl
  exact h rfl

theorem refusing_nil (p : Port) : p.refusing [] = p := by
  simp [refusing]

theorem refusing_append (p : Port) (rs more : List LinkRequest) :
    p.refusing (rs ++ more) = (p.refusing rs).refusing more := by
  simp [refusing]

/-- **A dead link does nothing but refuse.** -/
theorem step_dead (dead : p.link.alive = false) (current : p.link.current = none)
    (writing : p.writing = none) (e : Event) : p.step e = p.refusing e.requests := by
  cases e with
  | accept count => simp [step, writing, Event.requests, refusing_nil]
  | flushed => simp [step, writing, Event.requests, refusing_nil]
  | signal s =>
    rw [step, Event.requests]
    split
    · exact signal_refuses dead current writing s
    · rw [submitted_of_not_admits ‹_›, refusing_nil]

theorem steps_dead (dead : p.link.alive = false) (current : p.link.current = none)
    (writing : p.writing = none) (later : List Event) :
    p.steps later = p.refusing (later.flatMap Event.requests) := by
  induction later generalizing p with
  | nil => exact p.refusing_nil.symm
  | cons e later ih =>
    rw [steps_cons, step_dead dead current writing, List.flatMap_cons, refusing_append]
    exact ih dead current writing

/-- **How it goes with a link that dies of a failure.** -/
structure Lost (p : Port) (s : Signal) (f : Failure) : Prop where
  /-- it stays dead -/
  dead : ∀ later : List Event, ((p.step (.signal s)).steps later).link.alive = false
  /-- no byte is sent any more -/
  bytes : ∀ later : List Event, ((p.step (.signal s)).steps later).bytes = p.bytes
  /-- the caller of the outstanding command is told of the failure, and those who wait, and everyone
  who comes later, that there is no plotter; nothing else is to be seen -/
  observed : ∀ later : List Event, ((p.step (.signal s)).steps later).observed =
    p.observed ++ lastWords p.link.current s f ++
      (p.link.queue ++ later.flatMap Event.requests).map LinkRequest.refusal

theorem lost (alive : p.link.alive = true) (admitted : p.admits s = true) {f : Failure}
    (hf : s.failure? = some f) : p.Lost s f := by
  have hsteps (later : List Event) : ((p.step (.signal s)).steps later).link.alive = false ∧
      ((p.step (.signal s)).steps later).observed =
        p.observed ++ lastWords p.link.current s f ++
          (p.link.queue ++ later.flatMap Event.requests).map LinkRequest.refusal := by
    rw [step, if_pos admitted, signal_fatal alive hf, steps_dead rfl rfl rfl]
    exact ⟨rfl, by simp [refusing]⟩
  have hlast : (lastWords p.link.current s f).filterMap Observation.byte? = [] := by
    rw [lastWords]
    cases p.link.current <;> rfl
  refine ⟨fun later => (hsteps later).1, fun later => ?_, fun later => (hsteps later).2⟩
  rw [bytes, (hsteps later).2, List.filterMap_append, List.filterMap_append, hlast,
    LinkRequest.byte?_refusal, List.append_nil, List.append_nil, bytes]

/-! ## Links that are alive -/

theorem link_foldl_note (effects : List Effect) (p : Port) :
    (effects.foldl note p).link = p.link := by
  induction effects generalizing p with
  | nil => rfl
  | cons effect effects ih =>
    rw [List.foldl_cons, ih]
    cases effect <;> rfl

theorem link_signal (p : Port) (s : Signal) : (p.signal s).link = (p.link.step s).1 :=
  link_foldl_note _ _

end Port

namespace Link

variable {link : Link}

theorem alive_settle (link : Link) (result : Except Failure String) :
    (link.settle result).1.alive = link.alive := by
  rw [settle]
  split <;> rfl

/-- A link that nothing breaks stays alive. -/
theorem alive_of_failure? {s : Signal} (alive : link.alive = true) (unbroken : s.failure? = none) :
    (link.step s).1.alive = true := by
  rw [step.eq_def, if_pos alive]
  cases s with
  | submit r => exact alive
  | take =>
    rw [stepAlive, takeNext]
    split <;> exact alive
  | received bytes =>
    rw [stepAlive, receive]
    split
    · exact alive
    · split
      · exact (alive_settle _ _).trans alive
      · exact alive
  | expired =>
    rw [stepAlive, expire]
    split
    · exact (alive_settle _ _).trans alive
    · exact alive
  | _ => cases unbroken

end Link

/-! ## Links that are answered -/

/-- How the plotter answers a command: what it says completes a text, and nothing short of it
does. -/
structure Reply where
  heard : List (List UInt8) := []
  last : List UInt8
  text : String
  incomplete : ∀ reads, reads <+: heard → (AckBuffer.gathered reads).takeResponse.1 = none
  complete : (AckBuffer.gathered (heard ++ [last])).takeResponse.1 = some text

namespace Reply

/-- The exchange of a request that is answered. -/
def exchange (y : Reply) (r : LinkRequest) : Exchange where
  request := r
  sent := r.line
  heard := y.heard
  last := .received y.last
  result := .ok y.text

/-- What happens in it: a command is taken, the stream takes its line, and the answer is read. -/
def events (y : Reply) (r : LinkRequest) : List Port.Event :=
  [.signal .take, .accept r.line.length, .flushed] ++
    (y.heard ++ [y.last]).map fun bytes => .signal (.received bytes)

/-- An ASCII answer that is read in one lot. -/
def ofText (text : String) (answer : AckBuffer.IsAnswer text.toList)
    (ascii : ∀ c ∈ text.toList, c.toNat < 0x80) : Reply where
  heard := []
  last := Text.Utf8.encode text
  text := text
  incomplete := by
    intro reads h
    rw [List.prefix_nil.mp h]
    rfl
  complete := Link.takeResponse_of_answer rfl answer ascii

/-- What has been read after the answer. -/
def left (y : Reply) : AckBuffer :=
  (AckBuffer.gathered (y.heard ++ [y.last])).takeResponse.2

end Reply

namespace Port

variable {p : Port} {r : LinkRequest} {rest : List LinkRequest}

/-- A command has been taken, and the stream has taken its line. -/
def asking (p : Port) (r : LinkRequest) (rest : List LinkRequest) : Port :=
  { p with
    link := { p.link with buffer := {}, current := some r, queue := rest }
    writing := none
    observed := p.observed ++ r.line.map .sent }

theorem steps_asking (alive : p.link.alive = true) (current : p.link.current = none)
    (hqueue : p.link.queue = r :: rest) :
    p.steps [.signal .take, .accept r.line.length, .flushed] = p.asking r rest := by
  have htake : p.step (.signal .take) = p.signal .take := if_pos (by simp [admits, current])
  rw [steps_cons, htake, signal_take alive current hqueue]
  simp [steps, step, asking]

/-- More has been read, lot after lot, than what was. -/
def hearing (p : Port) (reads more : List (List UInt8)) : Port :=
  { p with
    link := { p.link with buffer := .gathered (reads ++ more) }
    observed := p.observed ++ more.map fun bytes => .got (.received bytes) }

theorem steps_hearing (reads more : List (List UInt8)) (alive : p.link.alive = true)
    (current : p.link.current = some r) (idle : p.writing = none)
    (buffer : p.link.buffer = .gathered reads)
    (incomplete : ∀ lots, lots <+: reads ++ more →
      (AckBuffer.gathered lots).takeResponse.1 = none) :
    p.steps (more.map fun bytes => .signal (.received bytes)) = p.hearing reads more := by
  induction more generalizing p reads with
  | nil =>
    rw [hearing, List.append_nil, ← buffer]
    simp [steps]
  | cons bytes more ih =>
    have hpush : p.link.buffer.push bytes = .gathered (reads ++ [bytes]) := by
      rw [buffer, AckBuffer.gathered_concat]
    have hincomplete : (p.link.buffer.push bytes).takeResponse.1 = none :=
      hpush ▸ incomplete _ ((List.prefix_append_right_inj _).mpr ⟨more, rfl⟩)
    have hstep : p.step (.signal (.received bytes)) = p.hearing reads [bytes] := by
      rw [step, if_pos (by simp [admits, idle]), signal_gathers alive current hincomplete, hpush]
      rfl
    rw [List.append_cons] at incomplete
    have hmore := ih (p := p.hearing reads [bytes]) _ alive current idle rfl incomplete
    rw [List.map_cons, steps_cons, hstep, hmore]
    simp [hearing]

/-- The answer is complete. -/
theorem step_answered (y : Reply) (alive : p.link.alive = true) (current : p.link.current = some r)
    (idle : p.writing = none) (buffer : p.link.buffer = .gathered y.heard) :
    p.step (.signal (.received y.last)) =
      { p with
        link := { p.link with buffer := y.left, current := none }
        writing := none
        observed := p.observed ++ [.got (.received y.last), .told r.caller (.ok y.text)] } := by
  have hpush : p.link.buffer.push y.last = .gathered (y.heard ++ [y.last]) := by
    rw [buffer, AckBuffer.gathered_concat]
  rw [step, if_pos (by simp [admits, idle]), signal_answered alive current (hpush ▸ y.complete),
    hpush]
  rfl

/-- **The next request is served**, if the plotter answers it. -/
theorem steps_answered (alive : p.link.alive = true) (current : p.link.current = none)
    (hqueue : p.link.queue = r :: rest) (y : Reply) :
    p.steps (y.events r) =
      { p with
        link := { p.link with buffer := y.left, current := none, queue := rest }
        writing := none
        observed := p.observed ++ (y.exchange r).observed } := by
  have hheard : (p.asking r rest).steps (y.heard.map fun bytes => .signal (.received bytes)) =
      (p.asking r rest).hearing [] y.heard :=
    steps_hearing [] y.heard (p := p.asking r rest) alive rfl rfl rfl y.incomplete
  have hlast := step_answered (p := (p.asking r rest).hearing [] y.heard) y alive rfl rfl rfl
  rw [Reply.events, List.map_append, steps_append, steps_append, steps_asking alive current hqueue,
    hheard, List.map_singleton, steps_cons, hlast]
  simp [steps, hearing, asking, Exchange.observed, Transfer.observed, Reply.exchange]

/-- **A link that is alive serves all requests that wait**, if the plotter answers them. -/
theorem steps_served (alive : p.link.alive = true) (current : p.link.current = none)
    (replies : LinkRequest → Reply) :
    (p.steps (p.link.queue.flatMap fun r => (replies r).events r)).observed =
      p.observed ++ p.link.queue.flatMap fun r => ((replies r).exchange r).observed := by
  generalize hqueue : p.link.queue = queue
  induction queue generalizing p with
  | nil => simp [steps]
  | cons r rest ih =>
    rw [List.flatMap_cons, steps_append, steps_answered alive current hqueue, List.flatMap_cons,
      ← List.append_assoc]
    exact ih alive rfl rfl

/-- **How it goes with a link that nothing has broken.** -/
structure Kept (p : Port) : Prop where
  alive : p.link.alive = true
  /-- callers have been told the answers to their commands, or that these took too long, and nothing
  else -/
  told : ∀ answer ∈ p.told, (∃ text, answer.2 = .ok text) ∨
    ∃ ms, p.link.limit = some ms ∧ answer.2 = .error (.transportTimeout ms)
  /-- as soon as no command is outstanding, those that wait are sent one after the other, as the
  plotter answers them -/
  served : p.link.current = none → ∀ replies : LinkRequest → Reply,
    (p.steps (p.link.queue.flatMap fun r => (replies r).events r)).observed =
      p.observed ++ p.link.queue.flatMap fun r => ((replies r).exchange r).observed

end Port

/-- A command that the link survives is answered or takes too long. -/
theorem Exchange.Ends.result_of_survived {limit : Option Nat} {x : Exchange} (h : x.Ends limit)
    (survived : x.Survived) : (∃ text, x.result = .ok text) ∨
      ∃ ms, limit = some ms ∧ x.result = .error (.transportTimeout ms) := by
  cases h with
  | acknowledged _ _ _ result => exact .inl ⟨_, result⟩
  | expired _ _ hlimit result => exact .inr ⟨_, hlimit, result⟩
  | failed last => cases survived.symm.trans last

namespace Port

variable {p : Port} {past : List Exchange} {now : Option Transfer} {refused : List LinkRequest}

theorem InTurn.kept (h : p.InTurn past now refused) (alive : p.link.alive = true) : p.Kept := by
  have hpast : refused = [] ∧ (∀ x ∈ past, x.Ends p.link.limit) ∧ ∀ x ∈ past, x.Survived := by
    cases h with
    | free _ _ _ _ _ ends survived => exact ⟨rfl, ends, survived⟩
    | busy _ _ _ _ ends survived => exact ⟨rfl, ends, survived⟩
    | dead dead => cases alive.symm.trans dead
  obtain ⟨rfl, ends, survived⟩ := hpast
  refine ⟨alive, ?_, fun current replies => steps_served alive current replies⟩
  intro answer hanswer
  rw [h.told_eq, List.map_nil, List.append_nil] at hanswer
  obtain ⟨x, hx, rfl⟩ := List.mem_map.mp hanswer
  exact (ends x hx).result_of_survived (survived x hx)

theorem alive_of_step (alive : p.link.alive = true) {e : Event} (unbroken : e.failure? = none) :
    (p.step e).link.alive = true := by
  cases e with
  | accept count =>
    rw [step]
    split <;> exact alive
  | flushed =>
    rw [step]
    split <;> exact alive
  | signal s =>
    rw [step]
    split
    · rw [link_signal]
      exact Link.alive_of_failure? alive unbroken
    · exact alive

theorem alive_of_steps (alive : p.link.alive = true) {later : List Event}
    (unbroken : ∀ e ∈ later, e.failure? = none) : (p.steps later).link.alive = true := by
  induction later generalizing p with
  | nil => exact alive
  | cons e later ih =>
    rw [List.forall_mem_cons] at unbroken
    rw [steps_cons]
    exact ih (alive_of_step alive unbroken.1) unbroken.2

/-! ## Commands that take too long -/

/-- **What comes of a command that takes too long**: its caller is told so, and the link is free. -/
structure TimedOut (p : Port) (r : LinkRequest) (ms : Nat) : Prop where
  outstanding : p.link.current = some r
  limit : p.link.limit = some ms
  free : (p.step (.signal .expired)).link.current = none
  queue : (p.step (.signal .expired)).link.queue = p.link.queue
  observed : (p.step (.signal .expired)).observed =
    p.observed ++ [.got .expired, .told r.caller (.error (.transportTimeout ms))]

theorem timedOut (alive : p.link.alive = true) (admitted : p.admits .expired = true) :
    ∃ r ms, p.TimedOut r ms := by
  obtain ⟨-, ⟨r, current⟩, ms, limit⟩ := of_admits_expired admitted
  have hstep : p.step (.signal .expired) = p.signal .expired := if_pos admitted
  rw [signal_expired alive current limit] at hstep
  exact ⟨r, ms, current, limit, by rw [hstep], by rw [hstep], by rw [hstep]⟩

/-! ## One way or the other -/

/-- **A link is lost for good or not at all.**  At any time, if anything happens to a link that is
alive: if its other end is gone, or it cannot be read from or written to, or it is given up, it is
lost, see `Port.Lost`; if not, it lives on until that happens, see `Port.Kept`, and the caller of a
command that takes too long is told no more than that, see `Port.TimedOut`. -/
theorem lost_or_kept {limit : Option Nat} {events : List Event} {s : Signal}
    (alive : (after limit events).link.alive = true)
    (admitted : (after limit events).admits s = true) :
    (∀ f, s.failure? = some f → (after limit events).Lost s f) ∧
      (s.failure? = none → ∀ later : List Event, (∀ e ∈ later, e.failure? = none) →
        (((after limit events).step (.signal s)).steps later).Kept) ∧
      (s = .expired → ∃ r ms, (after limit events).TimedOut r ms) := by
  refine ⟨fun f hf => lost alive admitted hf, fun unbroken later hlater => ?_, ?_⟩
  · have halive := alive_of_steps (alive_of_step (e := .signal s) alive unbroken) hlater
    have hafter : ((after limit events).step (.signal s)).steps later =
        after limit (events ++ .signal s :: later) := by
      rw [after, after, steps_append, steps_cons]
    obtain ⟨past, now, refused, h⟩ := inTurn_after limit (events ++ .signal s :: later)
    rw [hafter] at halive ⊢
    exact h.kept halive
  · rintro rfl
    exact timedOut alive admitted

/-- A command is outstanding, and another one waits. -/
def outstandingAndWaiting : List Event :=
  [.signal (.submit ⟨0, "G28"⟩), .signal (.submit ⟨1, "M400"⟩), .signal .take,
    .accept (LinkRequest.line ⟨0, "G28"⟩).length, .flushed]

theorem after_outstandingAndWaiting (limit : Option Nat) :
    after limit outstandingAndWaiting =
      (after limit [.signal (.submit ⟨0, "G28"⟩), .signal (.submit ⟨1, "M400"⟩)]).asking
        ⟨0, "G28"⟩ [⟨1, "M400"⟩] :=
  steps_asking rfl rfl rfl

/-- The plotter just acknowledges. -/
def justAck : Reply :=
  .ofText "ok\n" (AckBuffer.isAnswer_of_split (by decide)) (by simp)

/-- If the other end is gone, the link is lost; if the command takes too long, the next one is sent
and answered all the same. -/
theorem lost_or_kept_outstandingAndWaiting :
    (after (some 60) outstandingAndWaiting).link.alive = true ∧
      ((after (some 60) outstandingAndWaiting).admits .ended = true ∧
        (after (some 60) outstandingAndWaiting).Lost .ended (.io "plotter link closed")) ∧
      ((after (some 60) outstandingAndWaiting).admits .expired = true ∧
        ∃ r ms, (after (some 60) outstandingAndWaiting).TimedOut r ms) ∧
      (((after (some 60) outstandingAndWaiting).step (.signal .expired)).steps
        (justAck.events ⟨1, "M400"⟩)).observed =
        ((after (some 60) outstandingAndWaiting).step (.signal .expired)).observed ++
          (justAck.exchange ⟨1, "M400"⟩).observed := by
  have alive : (after (some 60) outstandingAndWaiting).link.alive = true := by
    rw [after_outstandingAndWaiting]
    rfl
  have ended : (after (some 60) outstandingAndWaiting).admits .ended = true := by
    rw [after_outstandingAndWaiting]
    rfl
  have expired : (after (some 60) outstandingAndWaiting).admits .expired = true := by
    rw [after_outstandingAndWaiting]
    rfl
  obtain ⟨hlost, -, -⟩ := lost_or_kept alive ended
  obtain ⟨-, hkept, htimedOut⟩ := lost_or_kept alive expired
  obtain ⟨r, ms, timedOut⟩ := htimedOut rfl
  have hqueue : ((after (some 60) outstandingAndWaiting).step (.signal .expired)).link.queue =
      [⟨1, "M400"⟩] := by
    rw [timedOut.queue, after_outstandingAndWaiting]
    rfl
  have kept : ((after (some 60) outstandingAndWaiting).step (.signal .expired)).Kept :=
    hkept rfl [] (by simp)
  have served := kept.served timedOut.free fun _ => justAck
  rw [hqueue, List.flatMap_singleton, List.flatMap_singleton] at served
  exact ⟨alive, ⟨ended, hlost _ rfl⟩, ⟨expired, r, ms, timedOut⟩, served⟩

end Port

end Stylus
