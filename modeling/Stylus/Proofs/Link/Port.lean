import Stylus.Proofs.Link.Signals

/-!
# A link at work, byte by byte

A `Port` is a link with the stream that it writes to, which takes the bytes of a line as it likes:
some now, some later, or not all of them.  While a line is being written the link does nothing else;
only requests may come in, and the writing may fail.  What can be seen from outside is kept as a
list of observations: the bytes that the stream has taken, what the link got while a command was
outstanding, and who was told what.

* `Port.step`, `Port.after` — what events do;
* `Link.step_submit`, …, `Port.signal_take`, … — what a signal does, for each kind of signal;
* `Exchange` — a command from its first byte to what its caller is told;
* `Port.InTurn` — **the invariant**: what was observed is one exchange after the other, and all
  requests are accounted for in the order in which they came in;
* `Port.inTurn_after` — it holds after all events.
-/

set_option autoImplicit false

namespace Stylus

/-! ## The port -/

/-- The bytes that a command is on the wire. -/
def LinkRequest.line (r : LinkRequest) : List UInt8 :=
  Text.Utf8.encode r.command ++ [10]

/-- What can be seen of a link from outside. -/
inductive Observation where
  /-- the stream has taken a byte -/
  | sent (byte : UInt8)
  /-- the link got a signal while a command was outstanding -/
  | got (s : Signal)
  /-- a caller was told what came of its request -/
  | told (caller : Nat) (result : Except Failure String)

/-- A link and the stream that it writes to. -/
structure Port where
  link : Link := {}
  /-- what the stream has not taken yet of the line that is being written; nothing is left of a line
  that has been taken whole but not yet flushed -/
  writing : Option (List UInt8) := none
  /-- the requests made, the first one first -/
  asked : List LinkRequest := []
  observed : List Observation := []

namespace Port

inductive Event where
  /-- the stream takes that many more bytes, or all there are -/
  | accept (count : Nat)
  /-- the stream has taken the line for good -/
  | flushed
  /-- anything else happens to the link -/
  | signal (s : Signal)

/-- What may happen to the link: while a line is being written it does not read, nor does it look at
the time; and it takes a request only if none is outstanding. -/
def admits (p : Port) : Signal → Bool
  | .submit _ | .aborted => true
  | .take => p.link.current.isNone
  | .received _ | .ended | .readFailed _ => p.writing.isNone
  | .expired => p.writing.isNone && p.link.current.isSome && p.link.limit.isSome
  | .writeFailed _ => p.writing.isSome

/-- What the link lets out: a line begins to be written, or a caller is told. -/
def note (p : Port) : Effect → Port
  | .write command => { p with writing := some (Text.Utf8.encode command ++ [10]) }
  | .reply caller result => { p with observed := p.observed ++ [.told caller result] }

/-- What is seen of a signal: it counts for the outstanding command. -/
def seen (link : Link) (s : Signal) : List Observation :=
  match s with
  | .submit _ => []
  | s => if link.current.isSome then [.got s] else []

/-- The request that comes in. -/
def submitted : Signal → List LinkRequest
  | .submit r => [r]
  | _ => []

/-- The link gets a signal. -/
def signal (p : Port) (s : Signal) : Port :=
  let moved := p.link.step s
  moved.2.foldl note
    { link := moved.1
      writing := if moved.1.current.isSome then p.writing else none
      asked := p.asked ++ submitted s
      observed := p.observed ++ seen p.link s }

/-- What an event does. -/
def step (p : Port) : Event → Port
  | .accept count =>
    match p.writing with
    | some rest =>
      { p with
        writing := some (rest.drop count)
        observed := p.observed ++ (rest.take count).map .sent }
    | none => p
  | .flushed => if p.writing = some [] then { p with writing := none } else p
  | .signal s => if p.admits s then p.signal s else p

/-- What events do, one after the other. -/
def steps (p : Port) (events : List Event) : Port :=
  events.foldl step p

/-- What events make of a fresh link. -/
def after (limit : Option Nat) (events : List Event) : Port :=
  steps { link := { limit } } events

end Port

/-! ## Signals, one kind after the other -/

/-- The failure of the outstanding command when the link dies. -/
def Signal.failure? : Signal → Option Failure
  | .ended => some (.io "plotter link closed")
  | .readFailed reason => some (.io reason)
  | .writeFailed reason => some (.io reason)
  | .aborted => some .noDevice
  | _ => none

namespace Link

variable {link : Link}

/-- There is no plotter for a request. -/
def refuse (r : LinkRequest) : Effect :=
  .reply r.caller (.error .noDevice)

theorem step_dead (h : link.alive = false) (s : Signal) :
    link.step s = (link, (Port.submitted s).map refuse) := by
  rw [step.eq_def, h, if_neg Bool.false_ne_true]
  cases s <;> rfl

theorem step_submit (h : link.alive = true) (r : LinkRequest) :
    link.step (.submit r) = ({ link with queue := link.queue ++ [r] }, []) := by
  rw [step, if_pos h, stepAlive]

/-- The next request is taken, with nothing gathered for it yet. -/
theorem step_take_cons (h : link.alive = true) (hcur : link.current = none) {r : LinkRequest}
    {rest : List LinkRequest} (hqueue : link.queue = r :: rest) :
    link.step .take =
      ({ link with buffer := {}, current := some r, queue := rest }, [.write r.command]) := by
  have hbuffer : link.buffer.takePending.2 = {} := by
    rw [AckBuffer.takePending]
    split
    · rename_i hempty
      exact congrArg AckBuffer.mk hempty
    · rfl
  rw [step.eq_def, if_pos h, stepAlive, takeNext]
  simp only [hcur, hqueue, hbuffer]

theorem step_take_nil (h : link.alive = true) (hqueue : link.queue = []) :
    link.step .take = (link, []) := by
  rw [step.eq_def, if_pos h, stepAlive, takeNext, hqueue]
  split
  · contradiction
  · rfl

/-- Bytes that are read while no command is outstanding are dropped. -/
theorem step_drops (hcur : link.current = none) {bytes : List UInt8} :
    link.step (.received bytes) = (link, []) := by
  rcases link.step_received bytes with ⟨heq, -⟩ | ⟨r, -, hcur', -⟩
  · exact heq
  · cases hcur.symm.trans hcur'

theorem step_expired (h : link.alive = true) {r : LinkRequest} (hcur : link.current = some r)
    {ms : Nat} (hlimit : link.limit = some ms) :
    link.step .expired =
      ({ link with current := none }, [.reply r.caller (.error (.transportTimeout ms))]) := by
  rw [step.eq_def, if_pos h, stepAlive, expire]
  simp only [hlimit, settle, hcur]

/-- A link dies: the outstanding command fails, and whoever waits is refused. -/
theorem step_fatal (h : link.alive = true) {s : Signal} {f : Failure} (hf : s.failure? = some f) :
    link.step s = ({ link with current := none, alive := false, queue := [] },
      (link.current.toList.map fun r => .reply r.caller (.error f)) ++ link.queue.map refuse) := by
  have hfail : link.step s = link.fail f := by
    rw [step.eq_def, if_pos h]
    cases s <;> cases hf <;> rfl
  rw [hfail, fail, settle]
  cases hcur : link.current with
  | none => simp [die, refuse, hcur]
  | some r => simp [die, refuse]

end Link

/-! ## Signals at the port -/

/-- What is seen of a request that is refused. -/
def LinkRequest.refusal (r : LinkRequest) : Observation :=
  .told r.caller (.error .noDevice)

namespace Port

variable {p : Port} {s : Signal} {r : LinkRequest} {bytes : List UInt8}

theorem signal_of_step {link : Link} {effects : List Effect}
    (h : p.link.step s = (link, effects)) :
    p.signal s = effects.foldl note
      { link
        writing := if link.current.isSome then p.writing else none
        asked := p.asked ++ submitted s
        observed := p.observed ++ seen p.link s } := by
  rw [signal, h]

theorem foldl_note_refuse (rs : List LinkRequest) (p : Port) :
    (rs.map Link.refuse).foldl note p =
      { p with observed := p.observed ++ rs.map LinkRequest.refusal } := by
  induction rs generalizing p with
  | nil => simp
  | cons r rs ih =>
    rw [List.map_cons, List.foldl_cons, ih]
    simp [note, Link.refuse, LinkRequest.refusal]

theorem seen_of_free {link : Link} (h : link.current = none) (s : Signal) : seen link s = [] := by
  cases s <;> simp [seen, h]

/-- Any signal but a new request counts for the outstanding command. -/
theorem seen_of_busy {link : Link} {r : LinkRequest} (h : link.current = some r)
    (other : ∀ r : LinkRequest, s ≠ .submit r) : seen link s = [.got s] := by
  cases s with
  | submit r => exact absurd rfl (other r)
  | _ => simp [seen, h]

theorem submitted_of_other (other : ∀ r : LinkRequest, s ≠ .submit r) : submitted s = [] := by
  cases s with
  | submit r => exact absurd rfl (other r)
  | _ => rfl

/-- Requests come in and are refused. -/
def refusing (p : Port) (rs : List LinkRequest) : Port :=
  { p with asked := p.asked ++ rs, observed := p.observed ++ rs.map LinkRequest.refusal }

/-- A dead link refuses what comes in. -/
theorem signal_refuses (dead : p.link.alive = false) (current : p.link.current = none)
    (writing : p.writing = none) (s : Signal) : p.signal s = p.refusing (submitted s) := by
  rw [signal_of_step (Link.step_dead dead s), foldl_note_refuse]
  simp [refusing, current, writing, seen_of_free current]

/-- The next request is taken, and its line begins to be written. -/
theorem signal_take (alive : p.link.alive = true) (current : p.link.current = none)
    {rest : List LinkRequest} (hqueue : p.link.queue = r :: rest) :
    p.signal .take =
      { p with
        link := { p.link with buffer := {}, current := some r, queue := rest }
        writing := some r.line } := by
  rw [signal_of_step (Link.step_take_cons alive current hqueue)]
  simp [note, submitted, seen_of_free current, LinkRequest.line]

/-- Bytes are read that do not complete the answer. -/
theorem signal_gathers (alive : p.link.alive = true) (current : p.link.current = some r)
    (incomplete : (p.link.buffer.push bytes).takeResponse.1 = none) :
    p.signal (.received bytes) =
      { p with
        link := { p.link with buffer := p.link.buffer.push bytes }
        observed := p.observed ++ [.got (.received bytes)] } := by
  have hseen := seen_of_busy (s := .received bytes) current nofun
  rw [signal_of_step (Link.step_gathers alive current incomplete)]
  simp [current, submitted, hseen]

/-- Bytes are read that complete the answer. -/
theorem signal_answered (alive : p.link.alive = true) (current : p.link.current = some r)
    {text : String} (complete : (p.link.buffer.push bytes).takeResponse.1 = some text) :
    p.signal (.received bytes) =
      { p with
        link := { p.link with buffer := (p.link.buffer.push bytes).takeResponse.2, current := none }
        writing := none
        observed := p.observed ++ [.got (.received bytes), .told r.caller (.ok text)] } := by
  have hseen := seen_of_busy (s := .received bytes) current nofun
  rw [signal_of_step (Link.step_answered alive current complete)]
  simp [note, submitted, hseen]

/-- Only a command whose line is out can take too long, and only if there is a limit. -/
theorem of_admits_expired (h : p.admits .expired = true) :
    p.writing = none ∧ (∃ r, p.link.current = some r) ∧ ∃ ms, p.link.limit = some ms := by
  have h : (p.writing = none ∧ p.link.current.isSome = true) ∧ p.link.limit.isSome = true := by
    simpa [admits] using h
  exact ⟨h.1.1, Option.isSome_iff_exists.mp h.1.2, Option.isSome_iff_exists.mp h.2⟩

/-- The outstanding command takes too long. -/
theorem signal_expired (alive : p.link.alive = true) (current : p.link.current = some r) {ms : Nat}
    (limit : p.link.limit = some ms) :
    p.signal .expired =
      { p with
        link := { p.link with current := none }
        writing := none
        observed := p.observed ++
          [.got .expired, .told r.caller (.error (.transportTimeout ms))] } := by
  have hseen := seen_of_busy (s := .expired) current nofun
  rw [signal_of_step (Link.step_expired alive current limit)]
  simp [note, submitted, hseen]

/-- What is seen when a link dies while `current` is outstanding: its caller is told why. -/
def lastWords (current : Option LinkRequest) (s : Signal) (f : Failure) : List Observation :=
  current.toList.flatMap fun r => [.got s, .told r.caller (.error f)]

/-- A link dies: whoever waits is refused, after the caller of the outstanding command has been
told. -/
theorem signal_fatal (alive : p.link.alive = true) {f : Failure} (hf : s.failure? = some f) :
    p.signal s =
      { link := { p.link with current := none, alive := false, queue := [] }
        writing := none
        asked := p.asked
        observed := p.observed ++ lastWords p.link.current s f ++
          p.link.queue.map LinkRequest.refusal } := by
  have other : ∀ r : LinkRequest, s ≠ .submit r := by
    rintro r rfl
    cases hf
  have hsubmitted := submitted_of_other other
  rw [signal_of_step (Link.step_fatal alive hf), List.foldl_append, foldl_note_refuse]
  cases hcur : p.link.current with
  | none => simp [lastWords, seen_of_free hcur, hsubmitted]
  | some r => simp [lastWords, seen_of_busy hcur other, hsubmitted, note]

end Port

/-! ## Exchanges -/

/-- The text that reads give, each decoded by itself. -/
def AckBuffer.gathered (reads : List (List UInt8)) : AckBuffer :=
  reads.foldl push {}

theorem AckBuffer.gathered_concat (reads : List (List UInt8)) (bytes : List UInt8) :
    gathered (reads ++ [bytes]) = (gathered reads).push bytes := by
  rw [gathered, List.foldl_append]
  rfl

/-- A command under way: what the stream has taken of its line, and what has been read for it. -/
structure Transfer where
  request : LinkRequest
  sent : List UInt8 := []
  heard : List (List UInt8) := []

/-- A command that has come to an end. -/
structure Exchange extends Transfer where
  /-- what ended it -/
  last : Signal
  result : Except Failure String

/-- What is seen of a command under way. -/
def Transfer.observed (t : Transfer) : List Observation :=
  t.sent.map .sent ++ t.heard.map fun bytes => .got (.received bytes)

/-- What is seen of a command that has come to an end. -/
def Exchange.observed (x : Exchange) : List Observation :=
  x.toTransfer.observed ++ [.got x.last, .told x.request.caller x.result]

/-- How far a command under way has come on the port. -/
structure Transfer.Under (t : Transfer) (p : Port) : Prop where
  current : p.link.current = some t.request
  buffer : p.link.buffer = .gathered t.heard
  /-- while the line is being written nothing is read -/
  writing : ∀ rest, p.writing = some rest → t.sent ++ rest = t.request.line ∧ t.heard = []
  written : p.writing = none → t.sent = t.request.line

theorem Transfer.Under.sent_isPrefix {t : Transfer} {p : Port} (h : t.Under p) :
    t.sent <+: t.request.line := by
  cases hw : p.writing with
  | none => exact h.written hw ▸ List.prefix_refl _
  | some rest => exact ⟨rest, (h.writing rest hw).1⟩

/-- **How a command comes to an end**: it is acknowledged, it takes too long, or the link dies. -/
inductive Exchange.Ends (limit : Option Nat) (x : Exchange) : Prop where
  | acknowledged {bytes : List UInt8} {text : String} (whole : x.sent = x.request.line)
      (last : x.last = .received bytes)
      (complete : (AckBuffer.gathered (x.heard ++ [bytes])).takeResponse.1 = some text)
      (result : x.result = .ok text)
  | expired {ms : Nat} (whole : x.sent = x.request.line) (last : x.last = .expired)
      (limit : limit = some ms) (result : x.result = .error (.transportTimeout ms))
  /-- a line is cut short only if it could not be written, or the link was given up meanwhile -/
  | failed {f : Failure} (last : x.last.failure? = some f) (result : x.result = .error f)
      (sent : x.sent <+: x.request.line)
      (cut : x.sent ≠ x.request.line → (∃ reason, x.last = .writeFailed reason) ∨ x.last = .aborted)

/-- The link lives on after a command. -/
def Exchange.Survived (x : Exchange) : Prop :=
  x.last.failure? = none

theorem Exchange.Ends.whole {limit : Option Nat} {x : Exchange} (h : x.Ends limit)
    (survived : x.Survived) : x.sent = x.request.line := by
  cases h with
  | acknowledged whole => exact whole
  | expired whole => exact whole
  | failed last => cases survived.symm.trans last

theorem Exchange.Ends.sent_isPrefix {limit : Option Nat} {x : Exchange} (h : x.Ends limit) :
    x.sent <+: x.request.line := by
  cases h with
  | acknowledged whole => exact whole ▸ List.prefix_refl _
  | expired whole => exact whole ▸ List.prefix_refl _
  | failed _ _ sent => exact sent

namespace Port

/-! ## The invariant -/

/-- **One exchange after the other**: `past` are those that have come to an end, and every request
made has had its exchange, has it now, or waits; once the link is dead, those that had none are
refused. -/
inductive InTurn (p : Port) : List Exchange → Option Transfer → List LinkRequest → Prop where
  /-- nothing is outstanding -/
  | free {past : List Exchange} (alive : p.link.alive = true) (current : p.link.current = none)
      (writing : p.writing = none)
      (asked : p.asked = past.map (fun x => x.request) ++ p.link.queue)
      (observed : p.observed = past.flatMap Exchange.observed)
      (ends : ∀ x ∈ past, x.Ends p.link.limit) (survived : ∀ x ∈ past, x.Survived) :
      InTurn p past none []
  /-- a command is outstanding -/
  | busy {past : List Exchange} {t : Transfer} (alive : p.link.alive = true) (under : t.Under p)
      (asked : p.asked = past.map (fun x => x.request) ++ t.request :: p.link.queue)
      (observed : p.observed = past.flatMap Exchange.observed ++ t.observed)
      (ends : ∀ x ∈ past, x.Ends p.link.limit) (survived : ∀ x ∈ past, x.Survived) :
      InTurn p past (some t) []
  /-- the link is dead; only the last exchange can have been the end of it -/
  | dead {past : List Exchange} {refused : List LinkRequest} (dead : p.link.alive = false)
      (current : p.link.current = none) (writing : p.writing = none) (queue : p.link.queue = [])
      (asked : p.asked = past.map (fun x => x.request) ++ refused)
      (observed : p.observed = past.flatMap Exchange.observed ++ refused.map LinkRequest.refusal)
      (ends : ∀ x ∈ past, x.Ends p.link.limit) (survived : ∀ x ∈ past.dropLast, x.Survived) :
      InTurn p past none refused

variable {p : Port} {past : List Exchange} {now : Option Transfer} {refused : List LinkRequest}

/-- The stream takes some more of the line. -/
theorem InTurn.accept (h : p.InTurn past now refused) (count : Nat) :
    ∃ now', (p.step (.accept count)).InTurn past now' refused := by
  cases hw : p.writing with
  | none =>
    rw [step, hw]
    exact ⟨now, h⟩
  | some rest =>
    rw [step, hw]
    cases h with
    | free _ _ writing => cases hw.symm.trans writing
    | dead _ _ writing => cases hw.symm.trans writing
    | @busy t alive under asked observed ends survived =>
      obtain ⟨hline, hheard⟩ := under.writing rest hw
      let t' : Transfer := { t with sent := t.sent ++ rest.take count }
      have under' : t'.Under { p with
          writing := some (rest.drop count)
          observed := p.observed ++ (rest.take count).map .sent } := by
        refine ⟨under.current, under.buffer, ?_, nofun⟩
        rintro _ ⟨⟩
        refine ⟨?_, hheard⟩
        rw [← hline, List.append_assoc, List.take_append_drop]
      refine ⟨some t', .busy alive under' asked ?_ ends survived⟩
      simp [observed, t', Transfer.observed, hheard]

/-- The line is out. -/
theorem InTurn.flushed (h : p.InTurn past now refused) :
    (p.step .flushed).InTurn past now refused := by
  rw [step]
  split
  · rename_i hw
    cases h with
    | free _ _ writing => cases hw.symm.trans writing
    | dead _ _ writing => cases hw.symm.trans writing
    | busy alive under asked observed ends survived =>
      refine .busy alive ⟨under.current, under.buffer, nofun, fun _ => ?_⟩ asked observed ends
        survived
      rw [← (under.writing [] hw).1, List.append_nil]
  · exact h

/-! ## What signals do to it -/

variable {s : Signal}

/-- A dead link refuses what comes in. -/
theorem InTurn.signal_dead (h : p.InTurn past now refused) (dead : p.link.alive = false)
    (s : Signal) : (p.signal s).InTurn past none (refused ++ submitted s) := by
  cases h with
  | free alive => cases alive.symm.trans dead
  | busy alive => cases alive.symm.trans dead
  | dead _ current writing queue asked observed ends survived =>
    rw [signal_refuses dead current writing]
    refine .dead dead current writing queue ?_ ?_ ends survived
    · simp [refusing, asked]
    · simp [refusing, observed]

/-- A request comes in. -/
theorem InTurn.submit (h : p.InTurn past now refused) (alive : p.link.alive = true)
    (r : LinkRequest) : (p.signal (.submit r)).InTurn past now refused := by
  rw [signal_of_step (Link.step_submit alive r)]
  cases h with
  | free _ current writing asked observed ends survived =>
    refine .free alive current (by simp [current]) ?_ ?_ ends survived
    · simp [asked, submitted]
    · simp [observed, seen]
  | busy _ under asked observed ends survived =>
    have hwriting : (if p.link.current.isSome then p.writing else none) = p.writing := by
      rw [under.current]
      rfl
    rw [hwriting]
    refine .busy alive ⟨under.current, under.buffer, under.writing, under.written⟩ ?_ ?_ ends
      survived
    · simp [asked, submitted]
    · simp [observed, seen]
  | dead dead => cases alive.symm.trans dead

/-- The next request is taken, if there is one. -/
theorem InTurn.take (h : p.InTurn past now refused) (alive : p.link.alive = true)
    (admitted : p.admits .take = true) : ∃ now', (p.signal .take).InTurn past now' refused := by
  cases h with
  | busy _ under => simp [admits, under.current] at admitted
  | dead dead => cases alive.symm.trans dead
  | free _ current writing asked observed ends survived =>
    cases hqueue : p.link.queue with
    | nil =>
      rw [signal_of_step (Link.step_take_nil alive hqueue)]
      refine ⟨none, .free alive current (by simp [current]) ?_ ?_ ends survived⟩
      · simp [asked, submitted]
      · simp [observed, seen_of_free current]
    | cons r rest =>
      rw [signal_take alive current hqueue]
      refine ⟨some { request := r }, .busy alive ⟨rfl, rfl, ?_, nofun⟩ ?_ ?_ ends survived⟩
      · rintro _ ⟨⟩
        exact ⟨rfl, rfl⟩
      · exact hqueue ▸ asked
      · simp [observed, Transfer.observed]

/-- The outstanding command has come to an end, and the link lives on. -/
theorem InTurn.settled {t : Transfer} (h : p.InTurn past (some t) []) {q : Port} {x : Exchange}
    (transfer : x.toTransfer = t) (alive : q.link.alive = true) (current : q.link.current = none)
    (limit : q.link.limit = p.link.limit) (queue : q.link.queue = p.link.queue)
    (writing : q.writing = none) (asked : q.asked = p.asked)
    (observed : q.observed = p.observed ++ [.got x.last, .told x.request.caller x.result])
    (ends : x.Ends p.link.limit) (survived : x.Survived) : q.InTurn (past ++ [x]) none [] := by
  subst transfer
  cases h with
  | busy _ _ hasked hobserved hends hsurvived =>
    refine .free alive current writing ?_ ?_ ?_ ?_
    · simp [asked, hasked, queue]
    · simp [observed, hobserved, Exchange.observed]
    · rw [limit, List.forall_mem_append]
      exact ⟨hends, List.forall_mem_singleton.mpr ends⟩
    · rw [List.forall_mem_append]
      exact ⟨hsurvived, List.forall_mem_singleton.mpr survived⟩

/-- Bytes are read: they are dropped, or gathered, or complete the answer to the outstanding
command. -/
theorem InTurn.received (h : p.InTurn past now refused) (alive : p.link.alive = true)
    {bytes : List UInt8} (admitted : p.admits (.received bytes) = true) :
    ∃ past' now', (p.signal (.received bytes)).InTurn past' now' refused := by
  have idle : p.writing = none := by simpa [admits] using admitted
  cases h with
  | dead dead => cases alive.symm.trans dead
  | free _ current writing asked observed ends survived =>
    rw [signal_of_step (Link.step_drops current)]
    refine ⟨past, none, .free alive current (by simp [current]) ?_ ?_ ends survived⟩
    · simp [asked, submitted]
    · simp [observed, seen_of_free current]
  | @busy t _ under asked observed ends survived =>
    have hbuffer : p.link.buffer.push bytes = .gathered (t.heard ++ [bytes]) := by
      rw [AckBuffer.gathered_concat, under.buffer]
    have written := under.written idle
    cases hresponse : (p.link.buffer.push bytes).takeResponse.1 with
    | none =>
      rw [signal_gathers alive under.current hresponse]
      let t' : Transfer := { t with heard := t.heard ++ [bytes] }
      refine ⟨past, some t',
        .busy alive ⟨under.current, hbuffer, ?_, fun _ => written⟩ asked ?_ ends survived⟩
      · simp [idle]
      · simp [observed, t', Transfer.observed]
    | some text =>
      rw [signal_answered alive under.current hresponse]
      let x : Exchange := { t with last := .received bytes, result := .ok text }
      have hx : x.Ends p.link.limit := .acknowledged written rfl (hbuffer ▸ hresponse) rfl
      exact ⟨past ++ [x], none, InTurn.settled (t := t)
        (.busy alive under asked observed ends survived) rfl alive rfl rfl rfl rfl rfl rfl hx rfl⟩

/-- The outstanding command takes too long. -/
theorem InTurn.expired (h : p.InTurn past now refused) (alive : p.link.alive = true)
    (admitted : p.admits .expired = true) :
    ∃ past', (p.signal .expired).InTurn past' none refused := by
  obtain ⟨idle, -, ms, hlimit⟩ := of_admits_expired admitted
  cases h with
  | dead dead => cases alive.symm.trans dead
  | free _ current => simp [admits, current] at admitted
  | @busy t _ under asked observed ends survived =>
    rw [signal_expired alive under.current hlimit]
    let x : Exchange := { t with last := .expired, result := .error (.transportTimeout ms) }
    have hx : x.Ends p.link.limit := .expired (under.written idle) rfl hlimit rfl
    exact ⟨past ++ [x], InTurn.settled (t := t) (.busy alive under asked observed ends survived)
      rfl alive rfl rfl rfl rfl rfl rfl hx rfl⟩

/-- While a line is being written, the link dies only of that, or is given up. -/
theorem cut_of_admits {t : Transfer} (h : t.Under p) {f : Failure} (hf : s.failure? = some f)
    (admitted : p.admits s = true) (cut : t.sent ≠ t.request.line) :
    (∃ reason, s = .writeFailed reason) ∨ s = .aborted := by
  have hwriting : p.writing ≠ none := fun idle => cut (h.written idle)
  cases s with
  | writeFailed reason => exact .inl ⟨reason, rfl⟩
  | aborted => exact .inr rfl
  | ended => simp [admits, hwriting] at admitted
  | readFailed reason => simp [admits, hwriting] at admitted
  | _ => cases hf

/-- The link dies. -/
theorem InTurn.dies (h : p.InTurn past now refused) (alive : p.link.alive = true) {f : Failure}
    (hf : s.failure? = some f) (admitted : p.admits s = true) :
    ∃ past' refused', (p.signal s).InTurn past' none refused' := by
  rw [signal_fatal alive hf]
  cases h with
  | dead dead => cases alive.symm.trans dead
  | free _ current writing asked observed ends survived =>
    refine ⟨past, p.link.queue, .dead rfl rfl rfl rfl asked ?_ ends fun x hx => ?_⟩
    · simp [observed, current, lastWords]
    · exact survived x (List.dropLast_subset _ hx)
  | @busy t _ under asked observed ends survived =>
    let x : Exchange := { t with last := s, result := .error f }
    have hx : x.Ends p.link.limit :=
      .failed hf rfl under.sent_isPrefix (cut_of_admits under hf admitted)
    refine ⟨past ++ [x], p.link.queue, .dead rfl rfl rfl rfl ?_ ?_ ?_ ?_⟩
    · simp [asked, x]
    · simp [observed, under.current, lastWords, x, Exchange.observed]
    · rw [List.forall_mem_append]
      exact ⟨ends, List.forall_mem_singleton.mpr hx⟩
    · rw [List.dropLast_concat]
      exact survived

/-! ## The run -/

theorem InTurn.signal (h : p.InTurn past now refused) (admitted : p.admits s = true) :
    ∃ past' now' refused', (p.signal s).InTurn past' now' refused' := by
  cases alive : p.link.alive with
  | false => exact ⟨past, none, _, h.signal_dead alive s⟩
  | true =>
    cases hf : s.failure? with
    | some f =>
      obtain ⟨past', refused', h'⟩ := h.dies alive hf admitted
      exact ⟨past', none, refused', h'⟩
    | none =>
      cases s with
      | submit r => exact ⟨past, now, refused, h.submit alive r⟩
      | take =>
        obtain ⟨now', h'⟩ := h.take alive admitted
        exact ⟨past, now', refused, h'⟩
      | received bytes =>
        obtain ⟨past', now', h'⟩ := h.received alive admitted
        exact ⟨past', now', refused, h'⟩
      | expired =>
        obtain ⟨past', h'⟩ := h.expired alive admitted
        exact ⟨past', none, refused, h'⟩
      | _ => cases hf

/-- **Every event keeps everything in turn.** -/
theorem InTurn.step (h : p.InTurn past now refused) (e : Event) :
    ∃ past' now' refused', (p.step e).InTurn past' now' refused' := by
  cases e with
  | accept count =>
    obtain ⟨now', h'⟩ := h.accept count
    exact ⟨past, now', refused, h'⟩
  | flushed => exact ⟨past, now, refused, h.flushed⟩
  | signal s =>
    rw [Port.step]
    split
    · exact h.signal ‹_›
    · exact ⟨past, now, refused, h⟩

theorem inTurn_after (limit : Option Nat) (events : List Event) :
    ∃ past now refused, (after limit events).InTurn past now refused := by
  suffices ∀ p : Port, (∃ past now refused, p.InTurn past now refused) →
      ∃ past now refused, (p.steps events).InTurn past now refused from
    this _ ⟨[], none, [], .free rfl rfl rfl rfl rfl (by simp) (by simp)⟩
  intro p h
  induction events generalizing p with
  | nil => exact h
  | cons e events ih =>
    obtain ⟨past, now, refused, h⟩ := h
    exact ih _ (h.step e)

end Port

end Stylus
