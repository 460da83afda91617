import Stylus.Proofs.Bench.Failures
import Stylus.Proofs.Bench.Sound
import Stylus.Server.Basic

/-!
# What a client waits for

A request that needs the controller waits for one turn, and when that is over for the client's
session to look at its report.  So there is always just one of the two, a turn in the line or a
report, while a client waits, and neither of them when it does not; and nobody else touches them.

* `Bench.turnsOf`, `Bench.reportsOf` — what there is in the line, and on report, of a client;
* `Bench.SameFor` — for that client nothing has changed;
* `Server.Session` — what a session that goes on may do;
* `Server.Queues` — how a request comes to wait for a turn;
* `Server.Orderly` — the invariant, and `Server.Orderly.steps`: it holds whatever happens;
* `Server.bench_steps` — what every event keeps of a bench, a server keeps of its bench.
-/

set_option autoImplicit false

namespace Stylus

/-! ## Turns and reports of a client -/

/-- A turn belongs to a client. -/
def Turn.isOf (n : Nat) (turn : Turn) : Bool :=
  turn.owner = .client n

theorem Turn.isOf_iff {n : Nat} {turn : Turn} : turn.isOf n = true ↔ turn.owner = .client n := by
  simp [isOf]

namespace Bench

/-- The turns of a client, in hand or waiting. -/
def turnsOf (b : Bench) (n : Nat) : List Turn :=
  b.line.filter (Turn.isOf n)

/-- The reports of turns of a client. -/
def reportsOf (b : Bench) (n : Nat) : List Report :=
  b.reports.filter (Server.isTurnOf n)

/-- For a client nothing has changed. -/
structure SameFor (n : Nat) (b b' : Bench) : Prop where
  turns : b'.turnsOf n = b.turnsOf n
  reports : b'.reportsOf n = b.reportsOf n

theorem SameFor.rfl {n : Nat} {b : Bench} : SameFor n b b := ⟨Eq.refl _, Eq.refl _⟩

theorem SameFor.trans {n : Nat} {b b' b'' : Bench} (h : SameFor n b b') (h' : SameFor n b' b'') :
    SameFor n b b'' :=
  ⟨h'.turns.trans h.turns, h'.reports.trans h.reports⟩

/-- The events by which a client asks for a turn, or gives it up. -/
def Event.isClients : Event → Bool
  | .queue (.client _) _ | .withdraw (.client _) => true
  | _ => false

variable {n : Nat} {b : Bench}

theorem turnsOf_of_holder {turn : Turn} (hb : b.holder = some turn) (ho : turn.isOf n = true) :
    b.turnsOf n = turn :: b.waiting.filter (Turn.isOf n) := by
  rw [turnsOf, line_of_holder hb, List.filter_cons_of_pos ho]

theorem turnsOf_of_other {turn : Turn} (hb : b.holder = some turn) (ho : ¬ turn.isOf n = true) :
    b.turnsOf n = b.waiting.filter (Turn.isOf n) := by
  rw [turnsOf, line_of_holder hb, List.filter_cons_of_neg ho]

theorem reportsOf_queue (b : Bench) (n : Nat) (owner : Owner) (stages : List Stage) :
    (b.queue owner stages).reportsOf n = b.reportsOf n := by
  obtain ⟨holder, waiting, h⟩ := b.queue_frame owner stages
  rw [h]
  rfl

theorem turnsOf_queue (free : b.holder = none → b.waiting = []) (owner : Owner)
    (stages : List Stage) :
    (b.queue owner stages).turnsOf n =
      b.turnsOf n ++ if owner = .client n then [⟨owner, .ready, stages⟩] else [] := by
  rw [turnsOf, line_queue free, List.filter_append]
  by_cases h : owner = .client n <;> simp [turnsOf, Turn.isOf, h]

theorem sameFor_queue (free : b.holder = none → b.waiting = []) {owner : Owner}
    (h : owner ≠ .client n) (stages : List Stage) : SameFor n b (b.queue owner stages) :=
  ⟨by rw [turnsOf_queue free, if_neg h, List.append_nil], b.reportsOf_queue n owner stages⟩

theorem sameFor_withdraw {guest : Guest} (h : guest.owner ≠ .client n) :
    SameFor n b (b.withdraw guest.owner) := by
  refine ⟨?_, rfl⟩
  have hkept (turn : Turn) :
      (turn.isOf n && (turn.owner ≠ guest.owner : Bool)) = turn.isOf n := by
    cases ho : turn.isOf n with
    | false => rfl
    | true =>
      rw [Turn.isOf_iff] at ho
      simp [ho, Ne.symm h]
  simp only [turnsOf, line, withdraw, List.filter_append, List.filter_filter, hkept]

theorem wakeRun_frame (b : Bench) : ∃ run : Option Run, b.wakeRun = { b with run } := by
  rw [wakeRun]
  split
  · split
    · exact ⟨_, rfl⟩
    · exact ⟨_, rfl⟩
  · exact ⟨_, rfl⟩

theorem sameFor_wakeRun (n : Nat) (b : Bench) : SameFor n b b.wakeRun := by
  obtain ⟨run, h⟩ := b.wakeRun_frame
  rw [h]
  exact ⟨rfl, rfl⟩

theorem reportsOf_turnOver (b : Bench) (n : Nat) (owner : Owner) (result : Except Failure String) :
    (b.turnOver owner result).reportsOf n =
      if owner = .client n then .turn owner result :: b.reportsOf n else b.reportsOf n := by
  have hand : b.handOn.reports = b.reports := by rw [handOn_eq]
  cases owner with
  | run =>
    rw [turnOver, runTurnOver]
    split
    · simp [reportsOf, hand]
    · split <;> simp [reportsOf, hand, passStep, endRun, Server.isTurnOf]
  | client m => by_cases h : m = n <;> simp [turnOver, reportsOf, Server.isTurnOf, h]
  | operator => simp [turnOver, reportsOf, Server.isTurnOf]

/-- What becomes of a client's turn that is moved. -/
def MovedFor (n : Nat) (b b' : Bench) (turn : Turn) : TurnState → Prop
  | .busy activity stages =>
    b'.turnsOf n = { turn with activity, stages } :: (b.turnsOf n).tail ∧
      b'.reportsOf n = b.reportsOf n
  | .over result =>
    b'.turnsOf n = (b.turnsOf n).tail ∧
      b'.reportsOf n = .turn (.client n) result :: b.reportsOf n

/-- **An event moves the client's turn, or nothing changes for the client.** -/
theorem step_for (hs : b.Sound) {e : Event} (h : e.isClients = false) (n : Nat) :
    (∃ (turn : Turn) (c : Controller) (s : TurnState), b.moving? e = some (turn, c, s) ∧
        turn.isOf n = true ∧ (b.step e).controller = c ∧ MovedFor n b (b.step e) turn s) ∨
      (∀ (turn : Turn) (c : Controller) (s : TurnState), b.moving? e = some (turn, c, s) →
        ¬ turn.isOf n = true) ∧ SameFor n b (b.step e) := by
  have still (hm : b.moving? e = none) {b' : Bench} (same : SameFor n b b') :
      (∀ (turn : Turn) (c : Controller) (s : TurnState), b.moving? e = some (turn, c, s) →
        ¬ turn.isOf n = true) ∧ SameFor n b b' := by
    refine ⟨fun turn c s moving => ?_, same⟩
    cases hm.symm.trans moving
  have hm := b.move e
  generalize b.step e = b' at hm ⊢
  cases hm with
  | idle begins moving => exact .inr (still moving .rfl)
  | @wish _ change wish =>
    refine .inr (still (moving?_eq_none (Event.not_holders_of_wish wish).1 b) ?_)
    have hwake := sameFor_wakeRun n { b with runner := change b.runner }
    exact ⟨hwake.turns, hwake.reports⟩
  | poll => exact .inr (still (moving?_eq_none rfl b) (sameFor_wakeRun n b))
  | queue guest stages =>
    refine .inr (still (moving?_eq_none rfl b) (sameFor_queue hs.free ?_ stages))
    cases guest <;> simp_all [Event.isClients, Guest.owner]
  | withdraw guest =>
    refine .inr (still (moving?_eq_none rfl b) (sameFor_withdraw ?_))
    cases guest <;> simp_all [Event.isClients, Guest.owner]
  | @takeTurn run step stages begins taken =>
    have hrun : Owner.run ≠ .client n := by simp
    have hqueue := sameFor_queue (b := { b with run := some { run with phase := .working } })
      hs.free hrun stages
    exact .inr (still (moving?_eq_none rfl b) ⟨hqueue.turns, hqueue.reports⟩)
  | @busy _ turn c activity stages moving =>
    have hb := (moving?_eq_some.mp moving).1
    by_cases ho : turn.isOf n = true
    · refine .inl ⟨turn, c, _, moving, ho, rfl, ?_, rfl⟩
      rw [turnsOf_of_holder hb ho]
      exact turnsOf_of_holder rfl ho
    · refine .inr ⟨fun turn' _ _ moving' => ?_, ?_, rfl⟩
      · cases moving.symm.trans moving'
        exact ho
      · rw [turnsOf_of_other hb ho]
        exact turnsOf_of_other rfl ho
  | @finish _ turn c result moving =>
    have hb := (moving?_eq_some.mp moving).1
    by_cases ho : turn.isOf n = true
    · refine .inl ⟨turn, c, _, moving, ho, turnOver_controller _ _ _, ?_, ?_⟩
      · rw [turnsOf, line_turnOver, turnsOf_of_holder hb ho]
        rfl
      · rw [reportsOf_turnOver, if_pos (Turn.isOf_iff.mp ho), Turn.isOf_iff.mp ho]
        rfl
    · refine .inr ⟨fun turn' _ _ moving' => ?_, ?_, ?_⟩
      · cases moving.symm.trans moving'
        exact ho
      · rw [turnsOf, line_turnOver, turnsOf_of_other hb ho]
      · rw [reportsOf_turnOver, if_neg fun h => ho (Turn.isOf_iff.mpr h)]
        rfl
  | _ => exact .inr (still (moving?_eq_none rfl b) ⟨rfl, rfl⟩)

theorem sound_clearReports (hs : b.Sound) (m : Nat) : (Server.clearReports b m).Sound :=
  ⟨hs.free, hs.ready, hs.turns, hs.running, hs.step⟩

theorem sameFor_clearReports {m : Nat} (h : m ≠ n) (b : Bench) :
    SameFor n b (Server.clearReports b m) := by
  refine ⟨rfl, ?_⟩
  have hkept (r : Report) :
      (Server.isTurnOf n r && !Server.isTurnOf m r) = Server.isTurnOf n r := by
    cases r with
    | run => rfl
    | turn owner result =>
      cases owner with
      | client k => by_cases hk : k = n <;> simp_all [Server.isTurnOf, Ne.symm h]
      | _ => rfl
  simp only [reportsOf, Server.clearReports, List.filter_filter, hkept]

theorem reportsOf_clearReports (b : Bench) (n : Nat) :
    (Server.clearReports b n).reportsOf n = [] := by
  simp [reportsOf, Server.clearReports, List.filter_filter]

/-- The turn that is reported to a client is the first of its reports. -/
theorem head?_reportsOf (b : Bench) (n : Nat) :
    (b.reportsOf n).head? = (Server.turnOf? n b.reports).map (Report.turn (.client n)) := by
  rw [reportsOf]
  fun_induction Server.turnOf? n b.reports with
  | case1 => rfl
  | case2 result rest =>
    rw [List.filter_cons_of_pos (by simp [Server.isTurnOf])]
    rfl
  | case3 m result rest hne ih =>
    rw [List.filter_cons_of_neg (by simp [Server.isTurnOf, hne]), ih]
  | case4 r rest other ih =>
    rw [List.filter_cons_of_neg (by simp [Server.isTurnOf]), ih]

theorem reportsOf_of_turnOf? {result : Except Failure String}
    (h : Server.turnOf? n b.reports = some result) :
    ∃ rest, b.reportsOf n = .turn (.client n) result :: rest := by
  have hhead := b.head?_reportsOf n
  rw [h] at hhead
  exact List.head?_eq_some_iff.mp hhead

/-- There is no report of a client whose turn is not reported. -/
theorem reportsOf_of_turnOf?_eq_none (h : Server.turnOf? n b.reports = none) :
    b.reportsOf n = [] := by
  have hhead := b.head?_reportsOf n
  rw [h] at hhead
  exact List.head?_eq_none_iff.mp hhead

end Bench

/-! ## Sessions -/

theorem Client.awaited_receive (c : Client) (bytes : List UInt8) :
    (c.receive bytes).awaited = c.awaited := by
  rw [receive]
  split <;> rfl

namespace Server

theorem client_setClient (s : Server) (n m : Nat) (c : Client) :
    (s.setClient n c).client m = if m = n then c else s.client m := by
  rw [client, setClient]
  dsimp only
  rw [List.find?_append]
  by_cases h : m = n
  · have hnone : (s.clients.filter (·.1 ≠ n)).find? (·.1 = m) = none := by
      simp [List.find?_eq_none, h]
    rw [if_pos h, hnone, Option.none_or, List.find?_cons_of_pos (by simp [h])]
    rfl
  · have hothers : (s.clients.filter (·.1 ≠ n)).find? (·.1 = m) = s.clients.find? (·.1 = m) := by
      rw [List.find?_filter]
      congr 1
      funext p
      by_cases hp : p.1 = m <;> simp [hp, h]
    rw [if_neg h, hothers, List.find?_cons_of_neg (by simp [Ne.symm h]), List.find?_nil,
      Option.or_none]
    rfl

/-- What a client's session that goes on does to the bench, and what the client waits for then. -/
inductive Session (s : Server) (n : Nat) : Bench → Option Awaited → Prop where
  /-- a line is answered or passed over, or the session ends -/
  | answers (idle : (s.client n).awaited = none) : Session s n s.bench none
  /-- wishes for the run are changed -/
  | wishes (idle : (s.client n).awaited = none) (e : Bench.Event) (wish : e.wish?.isSome = true) :
      Session s n (s.bench.step e) none
  /-- a request waits for a turn -/
  | waits (idle : (s.client n).awaited = none) (stages : List Stage) (awaited : Awaited) :
      Session s n (s.bench.queue (.client n) stages) (some awaited)
  /-- a request is answered whose turn is over -/
  | ends (awaited : Awaited) (waiting : (s.client n).awaited = some awaited)
      (result : Except Failure String) (reported : turnOf? n s.bench.reports = some result) :
      Session s n (Service.finish (clearReports s.bench n) awaited.pending result).1 none

/-- A request that is answered at once has at most changed the wishes. -/
theorem begin_answered {store : Store} {b bench : Bench} {r : Request}
    {result : Except Failure (Option Json)} (h : Service.begin store b r = .answered bench result) :
    bench = b ∨ ∃ e : Bench.Event, e.wish?.isSome = true ∧ bench = b.step e := by
  cases r with
  | pauseScript =>
    cases h
    exact .inr ⟨.pause, rfl, rfl⟩
  | resumeScript =>
    cases h
    exact .inr ⟨.resume, rfl, rfl⟩
  | stopScript =>
    cases h
    exact .inr ⟨.stop, rfl, rfl⟩
  | runScript script left right side =>
    rw [Service.begin] at h
    split at h <;> cases h
    exact .inl rfl
  | learn layout side position x y =>
    rw [Service.begin] at h
    split at h <;> cases h
    exact .inl rfl
  | _ =>
    first
    | cases h; exact .inl rfl
    | cases h

/-- A session that goes on changes nothing for other clients. -/
structure Goes (s s' : Server) (n : Nat) : Prop where
  session : Session s n s'.bench (s'.client n).awaited
  others : ∀ m, m ≠ n → s'.client m = s.client m

theorem Goes.of_setClient {s : Server} {n : Nat} {bench : Bench} {store : Store} {disk : Disk}
    {c : Client} (h : Session s n bench c.awaited) :
    Goes s (setClient { s with bench, store, disk } n c) n := by
  refine ⟨?_, fun m hm => ?_⟩
  · rw [client_setClient, if_pos rfl]
    exact h
  · rw [client_setClient, if_neg hm]
    rfl

variable {s s' : Server} {n : Nat}

theorem goes_of_handle (idle : (s.client n).awaited = none) (c : Client) (e : Envelope) :
    Goes s (s.handle n c e) n := by
  rw [handle]
  cases hb : Service.begin s.store s.bench e.request with
  | answered bench result =>
    refine .of_setClient ?_
    rcases begin_answered hb with rfl | ⟨e, wish, rfl⟩
    · exact .answers idle
    · exact .wishes idle e wish
  | filing work => exact .of_setClient (.answers idle)
  | preparing work =>
    dsimp only
    split
    · exact .of_setClient (.answers idle)
    · exact .of_setClient (.waits idle _ _)
  | turn stages pending => exact .of_setClient (.waits idle _ _)

theorem goes_of_handleLine (idle : (s.client n).awaited = none) {c : Client}
    (hc : c.awaited = none) (line : String) : Goes s (s.handleLine n c line) n := by
  have quiet {c : Client} (hc : c.awaited = none) : Session s n s.bench c.awaited := by
    rw [hc]
    exact .answers idle
  rw [handleLine]
  split
  · exact .of_setClient (quiet hc)
  · split
    · exact goes_of_handle idle c _
    · exact .of_setClient (quiet hc)

/-- **What a session does that goes on.** -/
theorem goes_of_move? (h : s.move? n = some s') : Goes s s' n := by
  rw [move?] at h
  dsimp only at h
  split at h
  · cases h
  · split at h
    · rename_i awaited waiting
      split at h
      · cases h
      · rename_i result reported
        cases h
        exact .of_setClient (.ends awaited waiting result reported)
    · rename_i idle
      split at h
      · cases h
      · cases h
        refine .of_setClient ?_
        show Session s n s.bench (s.client n).awaited
        rw [idle]
        exact .answers idle
      · cases h
        refine goes_of_handleLine idle ?_ _
        exact idle

/-- **How a request comes to wait for a turn**: it is for an operation, or for a run of which the
documents have been read. -/
inductive Queues (s : Server) (n : Nat) (e : Envelope) : Bench → Awaited → Prop where
  | turn {stages : List Stage} {pending : Pending}
      (begun : Service.begin s.store s.bench e.request = .turn stages pending) :
      Queues s n e (s.bench.queue (.client n) stages) ⟨e.id, pending⟩
  | launch {work : Storing RunRequest} {disk : Disk} {r : RunRequest}
      (begun : Service.begin s.store s.bench e.request = .preparing work)
      (read : Filing.run s.disk work.run = (disk, .ok r)) :
      Queues s n e (s.bench.queue (.client n) [.homeUnlessHomed]) ⟨e.id, .launch r⟩

theorem queues_of_handle {c : Client} {e : Envelope} {awaited : Awaited}
    (waiting : ((s.handle n c e).client n).awaited = some awaited) :
    Queues s n e (s.handle n c e).bench awaited := by
  rw [handle] at waiting ⊢
  cases begun : Service.begin s.store s.bench e.request with
  | answered bench result =>
    simp only [begun, client_setClient, if_pos] at waiting
    cases waiting
  | filing work =>
    simp only [begun, client_setClient, if_pos] at waiting
    cases waiting
  | preparing work =>
    simp only [begun] at waiting ⊢
    split at waiting
    · rw [client_setClient, if_pos rfl] at waiting
      cases waiting
    · rename_i disk r read
      simp only [awaitTurn, client_setClient, if_pos] at waiting
      cases waiting
      exact .launch begun read
  | turn stages pending =>
    simp only [begun, awaitTurn, client_setClient, if_pos] at waiting
    cases waiting
    exact .turn begun

theorem queues_of_move? (h : s.move? n = some s') (idle : (s.client n).awaited = none)
    {awaited : Awaited} (waiting : (s'.client n).awaited = some awaited) :
    ∃ line e, Envelope.ofLine line = .ok e ∧ Queues s n e s'.bench awaited := by
  have quiet {s₀ : Server} {c : Client} (hc : c.awaited = none)
      (waiting : ((s₀.setClient n c).client n).awaited = some awaited) : False := by
    rw [client_setClient, if_pos rfl, hc] at waiting
    cases waiting
  rw [move?] at h
  dsimp only at h
  split at h
  · cases h
  · rw [idle] at h
    dsimp only at h
    split at h
    · cases h
    · cases h
      exact (quiet rfl waiting).elim
    · cases h
      rw [handleLine] at waiting ⊢
      split at waiting
      · exact (quiet rfl waiting).elim
      · rename_i nonblank
        rw [if_neg nonblank]
        split at waiting
        · rename_i e parsed
          exact ⟨_, e, parsed, queues_of_handle waiting⟩
        · exact (quiet rfl waiting).elim

/-- A session that goes on comes to wait for a turn only if the client did not wait before. -/
theorem Session.idle_of_awaits {bench : Bench} {awaited : Option Awaited}
    (h : Session s n bench awaited) (awaits : awaited.isSome = true) :
    (s.client n).awaited = none := by
  cases h with
  | waits idle => exact idle
  | _ => cases awaits

/-- **What a client waits for after an event**: what it has waited for before, or its request has
just come to wait. -/
theorem awaited_of_step {e : Event} {awaited : Awaited}
    (waiting : ((s.step e).client n).awaited = some awaited) :
    (s.client n).awaited = some awaited ∨
      (s.client n).awaited = none ∧ ∃ line request, Envelope.ofLine line = .ok request ∧
        Queues s n request (s.step e).bench awaited := by
  have aside {m : Nat} {c : Client} (hc : c.awaited = (s.client m).awaited)
      (waiting : ((s.setClient m c).client n).awaited = some awaited) :
      (s.client n).awaited = some awaited := by
    rw [client_setClient] at waiting
    split at waiting
    · rename_i hm
      rw [hm, ← hc, waiting]
    · exact waiting
  cases e with
  | bench e => exact .inl waiting
  | receive m bytes => exact .inl (aside (Client.awaited_receive _ _) waiting)
  | hangUp m => exact .inl (aside (c := { s.client m with hungUp := true }) rfl waiting)
  | move m =>
    show _ ∨ _ ∧ ∃ line request, _ ∧ Queues s n request ((s.move? m).getD s).bench awaited
    replace waiting : (((s.move? m).getD s).client n).awaited = some awaited := waiting
    cases hm : s.move? m with
    | none =>
      rw [hm] at waiting
      exact .inl waiting
    | some s' =>
      rw [hm, Option.getD_some] at waiting
      obtain ⟨session, others⟩ := goes_of_move? hm
      by_cases hmn : n = m
      · subst hmn
        have idle := session.idle_of_awaits (by rw [waiting]; rfl)
        exact .inr ⟨idle, queues_of_move? hm idle waiting⟩
      · rw [others n hmn] at waiting
        exact .inl waiting

/-! ## What a session changes on the bench -/

/-- Events that are nobody's turn change nothing for any client, nor for the controller. -/
theorem quiet_event {b : Bench} (hs : b.Sound) {e : Bench.Event} (clients : e.isClients = false)
    (holders : e.isHolders = false) (m : Nat) :
    Bench.SameFor m b (b.step e) ∧ (b.step e).controller = b.controller := by
  have hnone := Bench.moving?_eq_none holders b
  constructor
  · rcases Bench.step_for hs clients m with ⟨turn, c, st, moving, -⟩ | ⟨-, same⟩
    · cases hnone.symm.trans moving
    · exact same
  · rcases Bench.step_work hs e with ⟨-, controller, -⟩ | ⟨turn, c, st, moving, -⟩
    · exact controller
    · cases hnone.symm.trans moving

/-- A call, which changes the wishes, changes nothing for any client, nor for the controller. -/
theorem quiet_wish {b : Bench} (hs : b.Sound) {e : Bench.Event} (wish : e.wish?.isSome = true)
    (m : Nat) :
    Bench.SameFor m b (b.step e) ∧ (b.step e).controller = b.controller := by
  obtain ⟨change, hchange⟩ := Option.isSome_iff_exists.1 wish
  have clients : e.isClients = false := by
    cases e <;> simp_all [Bench.Event.wish?, Bench.Event.isClients]
  exact quiet_event hs clients (Bench.Event.not_holders_of_wish hchange).1 m

/-- A request whose turn is over at most begins a run. -/
theorem finish_cases (b : Bench) (pending : Pending) (result : Except Failure String) :
    (Service.finish b pending result).1 = b ∨
      ∃ r, pending = .launch r ∧ (Service.finish b pending result).1 = b.step (.request r) := by
  rw [Service.finish.eq_def]
  split
  · exact .inl rfl
  · split
    · exact .inl rfl
    · exact .inl rfl
    · rename_i r
      refine .inr ⟨r, rfl, ?_⟩
      cases hr : b.request r <;> simp only [Bench.step, hr]

/-- Answering a request whose turn is over changes nothing for any client, nor for the
controller. -/
theorem quiet_finish {b : Bench} (hs : b.Sound) (pending : Pending) (result : Except Failure String)
    (m : Nat) :
    (Service.finish b pending result).1.Sound ∧
      Bench.SameFor m b (Service.finish b pending result).1 ∧
      (Service.finish b pending result).1.controller = b.controller := by
  rcases finish_cases b pending result with h | ⟨r, -, h⟩ <;> rw [h]
  · exact ⟨hs, .rfl, rfl⟩
  · exact ⟨hs.step_event _, quiet_event hs rfl rfl m⟩

namespace Session

variable {bench : Bench} {awaited : Option Awaited}

theorem sound (h : Session s n bench awaited) (hs : s.bench.Sound) : bench.Sound := by
  cases h with
  | answers => exact hs
  | wishes _ e => exact hs.step_event e
  | waits _ stages => exact hs.queue_guest (.client n) stages
  | ends awaited _ result =>
    exact (quiet_finish (Bench.sound_clearReports hs n) awaited.pending result n).1

theorem controller (h : Session s n bench awaited) (hs : s.bench.Sound) :
    bench.controller = s.bench.controller := by
  cases h with
  | answers => rfl
  | wishes _ _ wish => exact (quiet_wish hs wish n).2
  | waits => exact Bench.queue_controller _ _ _
  | ends awaited _ result =>
    exact (quiet_finish (Bench.sound_clearReports hs n) awaited.pending result n).2.2

theorem sameFor (h : Session s n bench awaited) (hs : s.bench.Sound) {m : Nat} (hm : m ≠ n) :
    Bench.SameFor m s.bench bench := by
  cases h with
  | answers => exact .rfl
  | wishes _ _ wish => exact (quiet_wish hs wish m).1
  | waits => exact Bench.sameFor_queue hs.free (by simpa using Ne.symm hm) _
  | ends awaited _ result =>
    have hclear := Bench.sameFor_clearReports (Ne.symm hm) s.bench
    exact hclear.trans (quiet_finish (Bench.sound_clearReports hs n) awaited.pending result m).2.1

end Session

/-! ## The invariant -/

/-- **What holds of every server that events lead to**: of a client that waits there is one turn in
the line or one report, and of others there is nothing. -/
structure Orderly (s : Server) : Prop where
  sound : s.bench.Sound
  counted : ∀ n, (s.bench.turnsOf n).length + (s.bench.reportsOf n).length =
    (s.client n).awaited.isSome.toNat

/-- What the plotter answers is what a link can tell of, and clients get and give up turns only by
their sessions. -/
def Event.isGenuine : Event → Bool
  | .bench e => e.isGenuine && !e.isClients
  | _ => true

theorem Event.genuine_bench {e : Bench.Event} (h : (Event.bench e).isGenuine = true) :
    e.isGenuine = true ∧ e.isClients = false := by
  simpa [Event.isGenuine] using h

namespace Orderly

/-- There is nothing of a client that does not wait. -/
theorem of_idle (h : s.Orderly) (idle : (s.client n).awaited = none) :
    s.bench.turnsOf n = [] ∧ s.bench.reportsOf n = [] := by
  have hcount := h.counted n
  rw [idle] at hcount
  simpa using hcount

/-- A client whose turn is reported has no turn and no other report. -/
theorem of_reported (h : s.Orderly) {result : Except Failure String}
    (reported : turnOf? n s.bench.reports = some result) :
    s.bench.turnsOf n = [] ∧ s.bench.reportsOf n = [.turn (.client n) result] := by
  have hcount := h.counted n
  obtain ⟨rest, hreports⟩ := Bench.reportsOf_of_turnOf? reported
  have hle := (s.client n).awaited.isSome.toNat_le
  rw [hreports, List.length_cons] at hcount
  have hturns : (s.bench.turnsOf n).length = 0 := by omega
  have hrest : rest.length = 0 := by omega
  rw [hreports, List.length_eq_zero_iff.mp hrest]
  exact ⟨List.length_eq_zero_iff.mp hturns, rfl⟩

theorem event (h : s.Orderly) {e : Bench.Event} (clients : e.isClients = false) :
    Orderly { s with bench := s.bench.step e } := by
  refine ⟨h.sound.step_event e, fun m => ?_⟩
  have hcount := h.counted m
  show ((s.bench.step e).turnsOf m).length + ((s.bench.step e).reportsOf m).length =
    (s.client m).awaited.isSome.toNat
  rcases Bench.step_for h.sound clients m with ⟨turn, c, st, moving, ho, -, moved⟩ | ⟨-, same⟩
  · have hturns := Bench.turnsOf_of_holder (Bench.moving?_eq_some.mp moving).1 ho
    rw [hturns, List.length_cons] at hcount
    match st, moved with
    | .busy activity stages, moved =>
      rw [moved.1, moved.2, hturns, List.tail_cons, List.length_cons]
      exact hcount
    | .over result, moved =>
      rw [moved.1, moved.2, hturns, List.tail_cons, List.length_cons]
      omega
  · rw [same.turns, same.reports]
    exact hcount

/-- A session that goes on. -/
theorem goes (h : s.Orderly) (hgoes : Goes s s' n) : s'.Orderly := by
  obtain ⟨session, others⟩ := hgoes
  refine ⟨session.sound h.sound, fun m => ?_⟩
  by_cases hm : m = n
  · subst hm
    generalize s'.bench = bench at session ⊢
    generalize (s'.client m).awaited = awaited at session ⊢
    cases session with
    | answers idle => rw [(h.of_idle idle).1, (h.of_idle idle).2]; rfl
    | wishes idle _ wish =>
      have same := (quiet_wish h.sound wish m).1
      rw [same.turns, same.reports, (h.of_idle idle).1, (h.of_idle idle).2]
      rfl
    | waits idle =>
      rw [Bench.turnsOf_queue h.sound.free, Bench.reportsOf_queue, (h.of_idle idle).1,
        (h.of_idle idle).2, if_pos rfl]
      rfl
    | ends awaited _ result reported =>
      have same := (quiet_finish (Bench.sound_clearReports h.sound m) awaited.pending result m).2.1
      rw [same.turns, same.reports, Bench.reportsOf_clearReports]
      show (s.bench.turnsOf m).length + 0 = 0
      rw [(h.of_reported reported).1]
      rfl
  · have same := session.sameFor h.sound hm
    rw [same.turns, same.reports, others m hm]
    exact h.counted m

/-- What arrives from a client is only put aside. -/
theorem with_client (h : s.Orderly) {c : Client} (hc : c.awaited = (s.client n).awaited) :
    (s.setClient n c).Orderly := by
  refine ⟨h.sound, fun m => ?_⟩
  have hcount := h.counted m
  rw [client_setClient]
  split
  · rename_i hm
    rw [hc, ← hm]
    exact hcount
  · exact hcount

theorem step (h : s.Orderly) {e : Event} (genuine : e.isGenuine = true) : (s.step e).Orderly := by
  cases e with
  | bench e => exact h.event (Event.genuine_bench genuine).2
  | receive n bytes => exact h.with_client (Client.awaited_receive _ _)
  | hangUp n => exact h.with_client rfl
  | move n =>
    show ((s.move? n).getD s).Orderly
    cases hm : s.move? n with
    | none => exact h
    | some s' => exact h.goes (goes_of_move? hm)

/-- **Whatever happens, a server is orderly.** -/
theorem steps (h : s.Orderly) {events : List Event} (genuine : ∀ e ∈ events, e.isGenuine = true) :
    (s.steps events).Orderly := by
  induction events generalizing s with
  | nil => exact h
  | cons e events ih =>
    exact ih (h.step (genuine e List.mem_cons_self))
      fun e' he' => genuine e' (List.mem_cons_of_mem _ he')

/-- A server that nobody has made a request of. -/
theorem of_fresh (settings : MotionSettings) (store : Store) (disk : Disk) :
    Orderly { bench := .fresh settings, store, disk } :=
  ⟨.of_fresh settings, fun _ => rfl⟩

end Orderly

/-! ## What the bench keeps -/

theorem genuine_of_wish {e : Bench.Event} (h : e.wish?.isSome = true) : e.isGenuine = true := by
  cases e <;> simp_all [Bench.Event.wish?, Bench.Event.isGenuine]

section

variable {P : Bench → Prop}
  (step : ∀ (b : Bench) (e : Bench.Event), b.Sound → e.isGenuine = true → P b → P (b.step e))
  (clear : ∀ (b : Bench) (n : Nat), P b → P (clearReports b n))

include step clear

/-- What events keep of a bench, a session that goes on does. -/
theorem Session.keeps {bench : Bench} {awaited : Option Awaited} (h : Session s n bench awaited)
    (hs : s.bench.Sound) (hP : P s.bench) : P bench := by
  cases h with
  | answers => exact hP
  | wishes _ e wish => exact step _ e hs (genuine_of_wish wish) hP
  | waits _ stages => exact step _ (.queue (.client n) stages) hs rfl hP
  | ends awaited _ result =>
    have hclear := clear s.bench n hP
    rcases finish_cases (clearReports s.bench n) awaited.pending result with h | ⟨r, -, h⟩ <;>
      rw [h]
    · exact hclear
    · exact step _ (.request r) (Bench.sound_clearReports hs n) rfl hclear

theorem bench_step (orderly : s.Orderly) {e : Event} (genuine : e.isGenuine = true)
    (hP : P s.bench) : P (s.step e).bench := by
  cases e with
  | bench e => exact step _ e orderly.sound (Event.genuine_bench genuine).1 hP
  | receive m bytes => exact hP
  | hangUp m => exact hP
  | move m =>
    show P ((s.move? m).getD s).bench
    cases hm : s.move? m with
    | none => exact hP
    | some s' => exact (goes_of_move? hm).session.keeps step clear orderly.sound hP

/-- **What every event keeps of a bench, the events of a server keep of its bench.** -/
theorem bench_steps (orderly : s.Orderly) {events : List Event}
    (genuine : ∀ e ∈ events, e.isGenuine = true) (hP : P s.bench) : P (s.steps events).bench := by
  induction events generalizing s with
  | nil => exact hP
  | cons e events ih =>
    have hgenuine := genuine e List.mem_cons_self
    exact ih (orderly.step hgenuine) (fun e' he' => genuine e' (List.mem_cons_of_mem _ he'))
      (bench_step step clear orderly hgenuine hP)

end

end Server

end Stylus
