import Stylus.Proofs.Link.Framing
import Stylus.Proofs.Link.Lost

/-!
# What an answer is made of

A link may read at any time: an answer that comes too late, a word of the plotter's own accord, the
rest of a lot that held more than an answer.  None of this gets into the answer to the next command.
To say so, everything that happens is kept in one list, whether or not a command is outstanding.

* `Port.happenings`, `Port.history` — what happens at an event, and along events;
* `Port.Hears` — **the invariant**: what has happened ends with the line of the outstanding command
  and the lots that were read since, and these lots are what is in the buffer;
* `Port.Heard` — what an answer is made of;
* `Port.heard_of_told` — **it is made of the lots that were read since its command was written**,
  and of nothing else.
-/

set_option autoImplicit false

namespace Stylus

open Text.Utf8 AckBuffer

/-! ## What happens -/

/-- What happens where a link meets the stream and its callers. -/
inductive Happening where
  /-- the stream has taken a byte -/
  | sent (byte : UInt8)
  /-- the stream has taken a line for good -/
  | flushed
  /-- a lot of bytes was read -/
  | read (lot : List UInt8)
  /-- a caller was told what came of its request -/
  | told (caller : Nat) (result : Except Failure String)

/-- What is seen of an effect when it happens. -/
def Effect.happening? : Effect → Option Happening
  | .write _ => none
  | .reply caller result => some (.told caller result)

namespace Port

/-- What is read off the stream with a signal; a dead link reads nothing. -/
def reads (link : Link) : Signal → List Happening
  | .received lot => if link.alive then [.read lot] else []
  | _ => []

/-- What happens at an event. -/
def happenings (p : Port) : Event → List Happening
  | .accept count => ((p.writing.getD []).take count).map .sent
  | .flushed => if p.writing = some [] then [.flushed] else []
  | .signal s =>
    if p.admits s then reads p.link s ++ (p.link.step s).2.filterMap Effect.happening? else []

/-- What happens along events. -/
def history (p : Port) : List Event → List Happening
  | [] => []
  | e :: events => p.happenings e ++ (p.step e).history events

theorem history_append (p : Port) (events later : List Event) :
    p.history (events ++ later) = p.history events ++ (p.steps events).history later := by
  induction events generalizing p with
  | nil => rfl
  | cons e events ih =>
    rw [List.cons_append, history, ih, history, List.append_assoc]
    rfl

variable {p : Port} {past : List Happening}

theorem happenings_signal {s : Signal} (admitted : p.admits s = true) {link : Link}
    {effects : List Effect} (h : p.link.step s = (link, effects)) :
    p.happenings (.signal s) = reads p.link s ++ effects.filterMap Effect.happening? := by
  rw [happenings, if_pos admitted, h]

/-! ## The invariant -/

/-- What has happened for the outstanding command: the stream takes its line, and then lots are
read. -/
def happened (p : Port) (t : Transfer) : List Happening :=
  t.sent.map .sent ++ (if p.writing = none then [.flushed] else []) ++ t.heard.map .read

/-- **What has happened ends with what has happened for the outstanding command**, and what was read
for it is no answer yet. -/
def Hears (p : Port) (past : List Happening) : Prop :=
  p.link.alive = true → p.link.current ≠ none → ∃ (t : Transfer) (earlier : List Happening),
    t.Under p ∧ past = earlier ++ p.happened t ∧ (gathered t.heard).takeResponse.1 = none

/-- The stream takes some more of the line. -/
theorem Hears.accept (h : p.Hears past) (count : Nat) :
    (p.step (.accept count)).Hears (past ++ p.happenings (.accept count)) := by
  rcases hw : p.writing with _ | rest
  · rw [step, happenings, hw]
    simpa using h
  · rw [step, happenings, hw]
    intro alive busy
    obtain ⟨t, earlier, under, rfl, incomplete⟩ := h alive busy
    obtain ⟨hline, hheard⟩ := under.writing rest hw
    refine ⟨{ t with sent := t.sent ++ rest.take count }, earlier,
      ⟨under.current, under.buffer, ?_, ?_⟩, ?_, incomplete⟩
    · rintro _ ⟨⟩
      refine ⟨?_, hheard⟩
      rw [← hline, List.append_assoc, List.take_append_drop]
    · rintro ⟨⟩
    · simp [happened, hw, hheard]

/-- The line is out. -/
theorem Hears.flushed (h : p.Hears past) :
    (p.step .flushed).Hears (past ++ p.happenings .flushed) := by
  rw [step, happenings]
  split
  · rename_i hw
    intro alive busy
    obtain ⟨t, earlier, under, rfl, incomplete⟩ := h alive busy
    obtain ⟨hline, hheard⟩ := under.writing [] hw
    refine ⟨t, earlier, ⟨under.current, under.buffer, ?_, fun _ => ?_⟩, ?_, incomplete⟩
    · rintro _ ⟨⟩
    · rw [← hline, List.append_nil]
    · simp [happened, hw, hheard]
  · rw [List.append_nil]
    exact h

/-- A request comes in. -/
theorem Hears.submit (h : p.Hears past) (alive : p.link.alive = true) (r : LinkRequest) :
    (p.signal (.submit r)).Hears (past ++ p.happenings (.signal (.submit r))) := by
  have hstep := Link.step_submit alive r
  rw [happenings_signal (s := .submit r) rfl hstep, signal_of_step hstep]
  intro _ busy
  obtain ⟨t, earlier, under, hpast, incomplete⟩ := h alive busy
  refine ⟨t, earlier, ⟨under.current, under.buffer, ?_, ?_⟩, ?_, incomplete⟩
  · simpa [under.current] using under.writing
  · simpa [under.current] using under.written
  · simpa [reads, happened, under.current] using hpast

/-- The next request is taken, if there is one. -/
theorem Hears.take (alive : p.link.alive = true) (admitted : p.admits .take = true) :
    (p.signal .take).Hears (past ++ p.happenings (.signal .take)) := by
  have current : p.link.current = none := by simpa [admits] using admitted
  rcases hqueue : p.link.queue with _ | ⟨r, rest⟩
  · intro _ busy
    rw [link_signal, Link.step_take_nil alive hqueue] at busy
    exact absurd current busy
  · rw [signal_take alive current hqueue,
      happenings_signal admitted (Link.step_take_cons alive current hqueue)]
    intro _ _
    refine ⟨{ request := r }, past, ⟨rfl, rfl, ?_, ?_⟩, ?_, rfl⟩
    · rintro _ ⟨⟩
      exact ⟨rfl, rfl⟩
    · rintro ⟨⟩
    · simp [reads, Effect.happening?, happened]

/-- A lot is read: it is dropped, or gathered, or completes the answer. -/
theorem Hears.received (h : p.Hears past) (alive : p.link.alive = true) {lot : List UInt8}
    (admitted : p.admits (.received lot) = true) :
    (p.signal (.received lot)).Hears (past ++ p.happenings (.signal (.received lot))) := by
  intro _ busy
  rw [link_signal] at busy
  rcases current : p.link.current with _ | r
  · rw [Link.step_drops current] at busy
    exact absurd current busy
  · have idle : p.writing = none := by simpa [admits] using admitted
    obtain ⟨t, earlier, under, rfl, -⟩ := h alive (by rw [current]; exact Option.some_ne_none r)
    rcases hresponse : (p.link.buffer.push lot).takeResponse.1 with _ | text
    · have hpush : p.link.buffer.push lot = .gathered (t.heard ++ [lot]) := by
        rw [gathered_concat, under.buffer]
      rw [signal_gathers alive current hresponse,
        happenings_signal admitted (Link.step_gathers alive current hresponse)]
      refine ⟨{ t with heard := t.heard ++ [lot] }, earlier,
        ⟨under.current, hpush, ?_, fun _ => under.written idle⟩, ?_, hpush ▸ hresponse⟩
      · simp [idle]
      · simp [reads, alive, happened, idle]
    · rw [Link.step_answered alive current hresponse] at busy
      exact absurd rfl busy

/-- **Every signal leaves what has happened in order.** -/
theorem Hears.signal (h : p.Hears past) {s : Signal} (admitted : p.admits s = true) :
    (p.signal s).Hears (past ++ p.happenings (.signal s)) := by
  intro alive' busy
  have alive : p.link.alive = true := by
    rw [link_signal] at alive'
    exact Link.alive_of_step alive'
  rcases hf : s.failure? with _ | f
  · rcases s with r | _ | lot | _ | _ | reason | reason | _
    · exact h.submit alive r alive' busy
    · exact Hears.take alive admitted alive' busy
    · exact h.received alive admitted alive' busy
    · obtain ⟨-, ⟨r, current⟩, ms, limit⟩ := of_admits_expired admitted
      rw [link_signal, Link.step_expired alive current limit] at busy
      exact absurd rfl busy
    all_goals cases hf
  · rw [link_signal, Link.step_fatal alive hf] at alive'
    cases alive'

theorem Hears.step (h : p.Hears past) (e : Event) :
    (p.step e).Hears (past ++ p.happenings e) := by
  rcases e with count | _ | s
  · exact h.accept count
  · exact h.flushed
  · by_cases admitted : p.admits s = true
    · rw [Port.step, if_pos admitted]
      exact h.signal admitted
    · rw [Port.step, happenings, if_neg admitted, if_neg admitted, List.append_nil]
      exact h

theorem Hears.steps (h : p.Hears past) (events : List Event) :
    (p.steps events).Hears (past ++ p.history events) := by
  induction events generalizing p past with
  | nil =>
    rw [history, List.append_nil]
    exact h
  | cons e events ih =>
    rw [history, ← List.append_assoc]
    exact ih (h.step e)

end Port

/-! ## What an answer is made of -/

theorem AckBuffer.pending_foldl_push (buffer : AckBuffer) (lots : List (List UInt8)) :
    (lots.foldl push buffer).pending = buffer.pending ++ decodedLots lots := by
  induction lots generalizing buffer with
  | nil => simp [decodedLots]
  | cons lot lots ih =>
    rw [List.foldl_cons, ih, pending_push, decodedLots_cons, List.append_assoc]

theorem AckBuffer.pending_gathered (lots : List (List UInt8)) :
    (gathered lots).pending = decodedLots lots :=
  pending_foldl_push {} lots

namespace Port

/-- **What an answer is made of** that a caller is told at the event `e`, after `events`. -/
structure Heard (limit : Option Nat) (events : List Event) (e : Event) (caller : Nat)
    (text : String) (r : LinkRequest) (earlier : List Happening) (lots : List (List UInt8)) :
    Prop where
  /-- what happened last: the stream took a line, lots were read, and the caller was told -/
  history : history { link := { limit } } (events ++ [e]) =
    earlier ++ r.line.map .sent ++ [.flushed] ++ lots.map .read ++ [.told caller (.ok text)]
  /-- the line is that of the caller's own command -/
  outstanding : (after limit events).link.current = some r
  own : r.caller = caller
  /-- the answer is what the lots show, through the first line that says `ok` -/
  first : text.toList <+: decodedLots lots ∧ Acknowledges text.toList ∧
    ∀ part : List Char, part <+: decodedLots lots → Acknowledges part → text.toList <+: part
  /-- there is no such line before the last lot -/
  incomplete : ∀ part : List Char, part <+: decodedLots lots.dropLast → ¬Acknowledges part
  /-- and the lots show what they show together, unless one of them ends inside a character -/
  together : Apart lots → decodedLots lots = decoded lots.flatten

/-- A caller is told of an answer when a lot is read, and only then. -/
theorem of_told {p : Port} {e : Event} {caller : Nat} {text : String}
    (h : .told caller (.ok text) ∈ p.happenings e) :
    ∃ (lot : List UInt8) (r : LinkRequest), e = .signal (.received lot) ∧
      p.admits (.received lot) = true ∧ p.link.alive = true ∧ p.link.current = some r ∧
      r.caller = caller ∧ (p.link.buffer.push lot).takeResponse.1 = some text := by
  rcases e with count | _ | s
  · obtain ⟨_, -, heq⟩ := List.mem_map.1 h
    cases heq
  · rw [happenings] at h
    split at h
    · cases List.mem_singleton.1 h
    · cases h
  · rw [happenings] at h
    split at h
    · rename_i admitted
      rcases List.mem_append.1 h with hread | hreply
      · rw [reads.eq_def] at hread
        split at hread
        · split at hread
          · cases List.mem_singleton.1 hread
          · cases hread
        · cases hread
      · obtain ⟨effect, heffect, htold⟩ := List.mem_filterMap.1 hreply
        rcases effect with command | ⟨caller', result⟩
        · cases htold
        · cases htold
          obtain ⟨lot, r, left, rfl, alive, current, own, hsplit⟩ := Link.reply_ok heffect
          refine ⟨lot, r, rfl, admitted, alive, current, own, ?_⟩
          rw [takeResponse_of_split hsplit, String.ofList_toList]
    · cases h

/-- **An answer is made of what was read since its command was written.**  Whatever has happened to
a link before — commands that were answered or took too long, lots that were read while nothing was
outstanding, text behind an answer: what a caller is told is what the lots show that were read after
the stream had taken the line of its command, through the first line that says `ok`.  See
`Heard`. -/
theorem heard_of_told {limit : Option Nat} {events : List Event} {e : Event} {caller : Nat}
    {text : String} (h : .told caller (.ok text) ∈ (after limit events).happenings e) :
    ∃ (r : LinkRequest) (earlier : List Happening) (lots : List (List UInt8)),
      Heard limit events e caller text r earlier lots := by
  obtain ⟨lot, r, rfl, admitted, alive, current, own, complete⟩ := of_told h
  have hfresh : Hears { link := { limit } } [] := fun _ busy => absurd rfl busy
  have hears : (after limit events).Hears (history { link := { limit } } events) :=
    hfresh.steps events
  obtain ⟨t, earlier, under, hpast, incomplete⟩ := hears alive (by simp [current])
  obtain rfl := Option.some.inj (current.symm.trans under.current)
  have idle : (after limit events).writing = none := by simpa [admits] using admitted
  have hpush : (after limit events).link.buffer.push lot = .gathered (t.heard ++ [lot]) := by
    rw [gathered_concat, under.buffer]
  have hhappenings := happenings_signal admitted (Link.step_answered alive current complete)
  rw [hpush] at complete
  have hresponds := (gathered (t.heard ++ [lot])).responds
  have hshortest := hresponds.shortest text _ (Prod.ext complete rfl)
  rw [pending_gathered] at hshortest
  refine ⟨t.request, earlier, t.heard ++ [lot], ?_, current, own, ?_, ?_, (decodedLots_eq_iff _).2⟩
  · have hsteps : steps { link := { limit } } events = after limit events := rfl
    rw [history_append, hpast, hsteps, history, history, hhappenings, happened, if_pos idle,
      under.written idle]
    simp [reads, alive, Effect.happening?, own]
  · exact ⟨hshortest.1 ▸ List.prefix_append _ _, hshortest.2⟩
  · intro part first ack
    rw [List.dropLast_concat, ← pending_gathered] at first
    have hsome := (gathered t.heard).responds.isSome_iff.2 ⟨part, first, ack⟩
    rw [incomplete] at hsome
    cases hsome

/-- A command takes too long, its answer comes while nothing is outstanding and is cut off by the
next command, which is answered in two lots, the second of which holds more than the answer. -/
def lateAndLeft : List Event :=
  [.signal (.submit ⟨1, "M105"⟩), .signal .take, .accept 5, .flushed,
    .signal (.received (encode "T:20\no")), .signal .expired, .signal (.received (encode "k\n")),
    .signal (.submit ⟨2, "M114"⟩), .signal .take, .accept 5, .flushed,
    .signal (.received (encode "X:1\no"))]

theorem heard_of_told_lateAndLeft :
    .told 2 (.ok "X:1\nok\n") ∈
        (after (some 60) lateAndLeft).happenings (.signal (.received (encode "k\nstart\n"))) ∧
      ∃ (r : LinkRequest) (earlier : List Happening) (lots : List (List UInt8)),
        Heard (some 60) lateAndLeft (.signal (.received (encode "k\nstart\n"))) 2 "X:1\nok\n"
          r earlier lots := by
  have admitted :
      (after (some 60) lateAndLeft).admits (.received (encode "k\nstart\n")) = true := by
    decide +kernel
  have alive : (after (some 60) lateAndLeft).link.alive = true := by decide +kernel
  have current : (after (some 60) lateAndLeft).link.current = some ⟨2, "M114"⟩ := by decide +kernel
  have complete : ((after (some 60) lateAndLeft).link.buffer.push
      (encode "k\nstart\n")).takeResponse.1 = some "X:1\nok\n" := by
    decide +kernel
  have htold : .told 2 (.ok "X:1\nok\n") ∈
      (after (some 60) lateAndLeft).happenings (.signal (.received (encode "k\nstart\n"))) := by
    rw [happenings_signal admitted (Link.step_answered alive current complete)]
    exact List.mem_append_right _ List.mem_cons_self
  exact ⟨htold, heard_of_told htold⟩

end Port

end Stylus
