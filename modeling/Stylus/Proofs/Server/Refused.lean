import Stylus.Proofs.Run.Lifecycle
import Stylus.Proofs.Server.Sessions

/-!
# Requests for runs that are refused

A request for a run is refused if a run is under way, if its documents are not there or are not what
they should be, and if it lacks a layout.  All but the last are found before the plotter is asked
for anything.  The layouts are looked at when the request has had its turn at the controller, and in
that turn a plotter that was not homed has been homed.

* `Dealing` — what a client's turn has to do with the plotter by one event;
* `Server.dealings` — all of it along events;
* `Launching` — how far the turn of a request for a run has come, and what it has done;
* `Server.refused_run` — **a refused request leaves the machine alone exactly if the plotter is
  homed when its turn begins**, or if it is refused at once;
* `Server.refused_run_homes` — one that does not.
-/

set_option autoImplicit false

namespace Stylus

/-! ## Dealings -/

/-- What is answered by an event to a turn in hand: what was asked for, and whether the answer was
good. -/
def Turn.answered? (turn : Turn) : Bench.Event → Option (Ask × Bool)
  | .answer a => turn.activity.work?.map fun work => (work.ask, Bench.isOk a)
  | _ => none

/-- A move of a turn at the controller: what was asked for and is answered by it, and the controller
before it and after it. -/
structure Dealing where
  answered : Option (Ask × Bool)
  before : Controller
  after : Controller

/-- Nothing was asked for, and the controller is as before. -/
def Dealing.Idle (d : Dealing) : Prop :=
  d.answered = none ∧ d.after = d.before

/-- The move of a client's turn that an event makes, if it makes one. -/
def Bench.dealings (b : Bench) (n : Nat) (e : Bench.Event) : List Dealing :=
  match b.moving? e with
  | some (turn, c, _) => if turn.isOf n then [⟨turn.answered? e, b.controller, c⟩] else []
  | none => []

namespace Bench

theorem failure?_eq_some {α : Type} {result : Except Failure α} {f : Failure} :
    failure? result = some f ↔ result = .error f := by
  cases result <;> simp [failure?]

variable {n : Nat} {b : Bench} {e : Event}

theorem dealings_of_moving {turn : Turn} {c : Controller} {s : TurnState}
    (moving : b.moving? e = some (turn, c, s)) (own : turn.isOf n = true) :
    b.dealings n e = [⟨turn.answered? e, b.controller, c⟩] := by
  rw [dealings, moving]
  exact if_pos own

theorem dealings_of_others (h : ∀ (turn : Turn) (c : Controller) (s : TurnState),
    b.moving? e = some (turn, c, s) → ¬ turn.isOf n = true) : b.dealings n e = [] := by
  rw [dealings]
  split
  · rename_i turn c s moving
    exact if_neg (h turn c s moving)
  · rfl

end Bench

namespace Server

/-- The move of a client's turn that an event makes, if it makes one. -/
def dealt (n : Nat) (s : Server) : Event → List Dealing
  | .bench e => s.bench.dealings n e
  | .receive _ _ | .hangUp _ | .move _ => []

/-- All moves of a client's turns along events. -/
def dealings (n : Nat) : Server → List Event → List Dealing
  | _, [] => []
  | s, e :: events => dealt n s e ++ dealings n (s.step e) events

/-- A client waits for the controller all along the events. -/
def AwaitsThrough (n : Nat) : Server → List Event → Prop
  | s, [] => (s.client n).awaited.isSome = true
  | s, e :: events => (s.client n).awaited.isSome = true ∧ AwaitsThrough n (s.step e) events

/-- The failure that a client will be told whose turn is over, if its request has failed. -/
def failure? (s : Server) (n : Nat) : Option Failure :=
  (s.client n).awaited.bind fun awaited =>
    (turnOf? n s.bench.reports).bind fun result =>
      Bench.failure? (Service.finish (clearReports s.bench n) awaited.pending result).2

end Server

/-! ## The turn of a request for a run -/

/-- The controller with a link. -/
def Controller.connected (c : Controller) : Controller :=
  { c with linked := true }

theorem Controller.connected_of_linked {c : Controller} (h : c.linked = true) :
    c.connected = c := by
  cases c
  cases h
  rfl

namespace Dealing

/-- What a turn that homes the plotter does until there is a link. -/
def untilLinked (start : Controller) : List Dealing :=
  ⟨none, start, start⟩ ::
    if start.linked then [] else [⟨some (.link, true), start, start.connected⟩]

/-- **All that the turn of a request for a run does**, if nothing fails: nothing, if the plotter is
homed when the turn begins; otherwise a link is made, if there is none, and the plotter is homed. -/
def untilHomed (start : Controller) : List Dealing :=
  if start.pose.homed then [⟨none, start, start⟩]
  else untilLinked start ++
    [⟨some (.command .home, true), start.connected, start.connected.track .origin⟩]

/-- Only a turn that finds the plotter homed leaves everything alone. -/
theorem idle_untilHomed_iff (start : Controller) :
    (∀ d ∈ untilHomed start, d.Idle) ↔ start.pose.homed = true := by
  rw [untilHomed]
  constructor
  · intro h
    by_cases homed : start.pose.homed = true
    · exact homed
    · rw [if_neg homed] at h
      have hlast := h _ (List.mem_append_right _ (List.mem_singleton.mpr rfl))
      cases hlast.1
  · intro homed
    rw [if_pos homed]
    exact List.forall_mem_singleton.mpr ⟨rfl, rfl⟩

end Dealing

/-- The turn of a client that homes the plotter, waiting for a link or for the plotter. -/
def Turn.homing (n : Nat) (linking : Bool) : Turn :=
  ⟨.client n, .asking ⟨linking, .home, [], .origin, []⟩, []⟩

/-- **How far the turn of a request for a run has come**, and what it has done by then. -/
inductive Launching (n : Nat) (b : Bench) : List Dealing → Prop where
  | waiting (turns : b.turnsOf n = [⟨.client n, .ready, [.homeUnlessHomed]⟩])
      (reports : b.reportsOf n = []) : Launching n b []
  /-- a link is being made -/
  | linking (start : Controller) (unhomed : start.pose.homed = false)
      (unlinked : start.linked = false) (controller : b.controller = start)
      (turns : b.turnsOf n = [.homing n true]) (reports : b.reportsOf n = []) :
      Launching n b [⟨none, start, start⟩]
  /-- the plotter is being homed -/
  | homing (start : Controller) (unhomed : start.pose.homed = false)
      (controller : b.controller = start.connected)
      (turns : b.turnsOf n = [.homing n false]) (reports : b.reportsOf n = []) :
      Launching n b (Dealing.untilLinked start)
  /-- the turn is over -/
  | ended (result : Except Failure String) (ds : List Dealing) (turns : b.turnsOf n = [])
      (reports : b.reportsOf n = [.turn (.client n) result])
      (ok : ∀ text, result = .ok text → ∃ start, ds = Dealing.untilHomed start)
      (error : ∀ f, result = .error f → f.isOfLink = true) : Launching n b ds

namespace Launching

variable {n : Nat} {b b' : Bench} {ds : List Dealing}

/-- A turn that is the only one of its client and not just waiting is in hand. -/
theorem holder_of_turnsOf (hs : b.Sound) {turn : Turn} (turns : b.turnsOf n = [turn])
    (busy : turn.activity ≠ .ready) : b.holder = some turn := by
  have hm : turn ∈ b.line := (List.mem_filter.mp (turns ▸ List.mem_singleton.mpr rfl)).1
  rcases List.mem_append.mp hm with hm | hm
  · simpa using hm
  · exact absurd (hs.ready turn hm) busy

/-- Nothing has changed for the client, nor for the controller while the client has it. -/
theorem same (h : Launching n b ds) (same : Bench.SameFor n b b')
    (controller : ∀ turn, b.turnsOf n = [turn] → turn.activity ≠ .ready →
      b'.controller = b.controller) : Launching n b' ds := by
  cases h with
  | waiting turns reports => exact .waiting (same.turns.trans turns) (same.reports.trans reports)
  | linking start unhomed unlinked hc turns reports =>
    have hc' := controller _ turns (by simp [Turn.homing])
    exact .linking start unhomed unlinked (hc'.trans hc) (same.turns.trans turns)
      (same.reports.trans reports)
  | homing start unhomed hc turns reports =>
    have hc' := controller _ turns (by simp [Turn.homing])
    exact .homing start unhomed (hc'.trans hc) (same.turns.trans turns)
      (same.reports.trans reports)
  | ended result ds turns reports ok error =>
    exact .ended result ds (same.turns.trans turns) (same.reports.trans reports) ok error

/-- A turn that is over with a bad answer. -/
theorem failed {turn : Turn} {f : Failure} (turns : b.turnsOf n = [turn])
    (reports : b.reportsOf n = []) (moved : Bench.MovedFor n b b' turn (.over (.error f)))
    (genuine : f.isOfLink = true) (ds : List Dealing) : Launching n b' ds := by
  obtain ⟨hturns, hreports⟩ := moved
  rw [turns] at hturns
  rw [reports] at hreports
  refine .ended _ ds hturns hreports ?_ ?_
  · rintro text ⟨⟩
  · rintro _ ⟨⟩
    exact genuine

/-- A turn that is over with the plotter homed. -/
theorem done {turn : Turn} {text : String} (turns : b.turnsOf n = [turn])
    (reports : b.reportsOf n = []) (moved : Bench.MovedFor n b b' turn (.over (.ok text)))
    {start : Controller} (hds : ds = Dealing.untilHomed start) : Launching n b' ds := by
  obtain ⟨hturns, hreports⟩ := moved
  rw [turns] at hturns
  rw [reports] at hreports
  refine .ended _ ds hturns hreports (fun _ _ => ⟨start, hds⟩) ?_
  rintro f ⟨⟩

/-- The turn begins. -/
theorem begun {turn : Turn} {s : TurnState} (turns : b.turnsOf n = [turn])
    (reports : b.reportsOf n = []) (owner : turn.owner = .client n)
    (controller : b'.controller = b.controller)
    (goes : Turn.GoesOn b.controller b.now "" [] [.homeUnlessHomed] s)
    (moved : Bench.MovedFor n b b' turn s) :
    Launching n b' [⟨none, b.controller, b.controller⟩] := by
  cases goes with
  | homed homed goes =>
    cases goes
    have hds : [⟨none, b.controller, b.controller⟩] = Dealing.untilHomed b.controller := by
      rw [Dealing.untilHomed, if_pos homed]
    exact done turns reports moved hds
  | homes unhomed =>
    obtain ⟨hturns, hreports⟩ := moved
    rw [turns, owner] at hturns
    cases hl : b.controller.linked with
    | false =>
      rw [hl] at hturns
      exact .linking _ unhomed hl controller hturns (hreports.trans reports)
    | true =>
      rw [hl] at hturns
      have hds : [⟨none, b.controller, b.controller⟩] = Dealing.untilLinked b.controller := by
        rw [Dealing.untilLinked, if_pos hl]
      rw [hds]
      refine .homing _ unhomed ?_ hturns (hreports.trans reports)
      rw [controller, Controller.connected_of_linked hl]

/-- **Every event takes the turn further, or leaves it as it is.** -/
theorem step (h : Launching n b ds) (hs : b.Sound) {e : Bench.Event}
    (genuine : e.isGenuine = true) (clients : e.isClients = false) :
    Launching n (b.step e) (ds ++ b.dealings n e) := by
  rcases Bench.step_for hs clients n with
    ⟨turn, c, s, moving, own, controller, moved⟩ | ⟨others, same⟩
  · obtain ⟨hb, hmoved⟩ := Bench.moving?_eq_some.mp moving
    have hline := Bench.turnsOf_of_holder hb own
    have hm := Turn.moved_of_moved? hmoved
    generalize turn.answers e = sent at hm
    rw [Bench.dealings_of_moving moving own]
    cases h with
    | waiting turns reports =>
      obtain ⟨rfl, -⟩ := List.cons.inj (hline.symm.trans turns)
      cases hm with
      | due due goes =>
        have hanswered : Turn.answered? ⟨.client n, .ready, [.homeUnlessHomed]⟩ e = none := by
          cases due <;> rfl
        rw [hanswered]
        exact begun turns reports rfl controller goes moved
      | linked asking | unlinked asking | failed asking | onward asking | legDone asking =>
        cases asking
    | linking start unhomed unlinked hc turns reports =>
      obtain ⟨rfl, -⟩ := List.cons.inj (hline.symm.trans turns)
      cases hm with
      | due due => exact absurd rfl (due.ne_asking _)
      | linked asking linking text =>
        cases asking
        obtain ⟨hturns, hreports⟩ := moved
        rw [turns] at hturns
        have hds : Dealing.untilLinked start =
            [⟨none, start, start⟩, ⟨some (.link, true), start, start.connected⟩] := by
          rw [Dealing.untilLinked, unlinked, if_neg Bool.false_ne_true]
        rw [hc] at controller ⊢
        have hhoming : Launching n (b.step (.answer (.ok text))) (Dealing.untilLinked start) :=
          .homing start unhomed controller hturns (hreports.trans reports)
        rw [hds] at hhoming
        exact hhoming
      | unlinked asking linking f => exact failed turns reports moved genuine _
      | failed asking asked | onward asking asked | legDone asking asked =>
        cases asking
        cases asked
    | homing start unhomed hc turns reports =>
      obtain ⟨rfl, -⟩ := List.cons.inj (hline.symm.trans turns)
      cases hm with
      | due due => exact absurd rfl (due.ne_asking _)
      | linked asking linking | unlinked asking linking =>
        cases asking
        cases linking
      | failed asking asked f => exact failed turns reports moved genuine _
      | onward asking asked more =>
        cases asking
        cases more
      | legDone asking asked last goes =>
        cases asking
        cases goes
        have hds : Dealing.untilLinked start ++
            [⟨some (.command .home, true), start.connected, start.connected.track .origin⟩] =
              Dealing.untilHomed start := by
          rw [Dealing.untilHomed, unhomed, if_neg Bool.false_ne_true]
        rw [hc]
        exact done turns reports moved hds
    | ended result ds turns => cases hline.symm.trans turns
  · rw [Bench.dealings_of_others others, List.append_nil]
    refine h.same same fun turn turns busy => ?_
    have hb := holder_of_turnsOf hs turns busy
    have own : turn.isOf n = true := (List.mem_filter.mp (turns ▸ List.mem_singleton.mpr rfl)).2
    rcases Bench.step_work hs e with ⟨-, controller, -⟩ | ⟨turn', c, s, moving, -⟩
    · exact controller
    · have hb' := (Bench.moving?_eq_some.mp moving).1
      obtain rfl := Option.some.inj (hb.symm.trans hb')
      exact absurd own (others _ _ _ moving)

end Launching

/-! ## Requests -/

namespace Server

variable {s : Server} {n : Nat} {ds : List Dealing}

/-- What a client waits for changes only when it is answered. -/
theorem awaited_step {e : Event} (awaits : (s.client n).awaited.isSome = true)
    (still : ((s.step e).client n).awaited.isSome = true) :
    ((s.step e).client n).awaited = (s.client n).awaited := by
  obtain ⟨awaited, waiting⟩ := Option.isSome_iff_exists.mp still
  rcases awaited_of_step waiting with same | ⟨idle, -⟩
  · rw [waiting, same]
  · rw [idle] at awaits
    cases awaits

/-- While the client waits, every event takes its turn further or leaves it as it is. -/
theorem launching_step (h : Launching n s.bench ds) (orderly : s.Orderly) {e : Event}
    (genuine : e.isGenuine = true) (awaits : (s.client n).awaited.isSome = true)
    (still : ((s.step e).client n).awaited.isSome = true) :
    Launching n (s.step e).bench (ds ++ dealt n s e) := by
  cases e with
  | bench e =>
    obtain ⟨genuine, clients⟩ := Event.genuine_bench genuine
    exact h.step orderly.sound genuine clients
  | receive m bytes =>
    rw [dealt, List.append_nil]
    exact h
  | hangUp m =>
    rw [dealt, List.append_nil]
    exact h
  | move m =>
    rw [dealt, List.append_nil]
    show Launching n ((s.move? m).getD s).bench ds
    replace still : (((s.move? m).getD s).client n).awaited.isSome = true := still
    cases hm : s.move? m with
    | none => exact h
    | some s' =>
      obtain ⟨session, -⟩ := goes_of_move? hm
      rw [hm, Option.getD_some] at still
      by_cases hmn : n = m
      · subst hmn
        rw [session.idle_of_awaits still] at awaits
        cases awaits
      · exact h.same (session.sameFor orderly.sound hmn) fun _ _ _ =>
          session.controller orderly.sound

theorem launching_steps {events : List Event} (h : Launching n s.bench ds) (orderly : s.Orderly)
    (genuine : ∀ e ∈ events, e.isGenuine = true) (awaits : s.AwaitsThrough n events) :
    ((s.steps events).client n).awaited = (s.client n).awaited ∧
      Launching n (s.steps events).bench (ds ++ dealings n s events) := by
  induction events generalizing s ds with
  | nil =>
    rw [dealings, List.append_nil]
    exact ⟨rfl, h⟩
  | cons e events ih =>
    obtain ⟨awaits, later⟩ := awaits
    have still : ((s.step e).client n).awaited.isSome = true := by
      cases events with
      | nil => exact later
      | cons => exact later.1
    have hgenuine := genuine e List.mem_cons_self
    have hsame := awaited_step awaits still
    have hstep := launching_step h orderly hgenuine awaits still
    obtain ⟨hsame', hsteps⟩ := ih hstep (orderly.step hgenuine)
      (fun e' he' => genuine e' (List.mem_cons_of_mem _ he')) later
    rw [dealings, ← List.append_assoc]
    exact ⟨hsame'.trans hsame, hsteps⟩

/-- A request for a run is answered at once, and nothing is done, or it waits for its turn. -/
theorem handle_runScript (orderly : s.Orderly) (idle : (s.client n).awaited = none) (c : Client)
    (id : Option String) (script : String) (left right : Option String) (side : Option Side) :
    let s' := s.handle n c ⟨id, .runScript script left right side⟩
    ((s'.client n).awaited = none ∧ s'.bench = s.bench) ∨
      ∃ r, (s'.client n).awaited = some ⟨id, .launch r⟩ ∧ Launching n s'.bench [] := by
  intro s'
  have answered {disk : Disk} {result : Except Failure (Option Json)}
      (h : s' = setClient { s with disk } n (c.answer id result)) :
      (s'.client n).awaited = none ∧ s'.bench = s.bench := by
    rw [h, client_setClient, if_pos rfl]
    exact ⟨rfl, rfl⟩
  cases hrun : s.bench.runner.progress.running with
  | true =>
    have hhandle :
        s' = setClient { s with disk := s.disk } n (c.answer id (.error .runActive)) := by
      simp only [s', handle, Service.begin, hrun, if_true]
    exact .inl (answered hhandle)
  | false =>
    cases hread : Filing.run s.disk (Service.documents s.store script left right side).run with
    | mk disk result =>
      cases result with
      | error f =>
        have hhandle : s' = setClient { s with disk } n (c.answer id (.error f)) := by
          simp only [s', handle, Service.begin, hrun, Bool.false_eq_true, if_false, hread]
        exact .inl (answered hhandle)
      | ok r =>
        have hhandle :
            s' = awaitTurn { s with disk } n c id [.homeUnlessHomed] (.launch r) := by
          simp only [s', handle, Service.begin, hrun, Bool.false_eq_true, if_false, hread]
        obtain ⟨hturns, hreports⟩ := orderly.of_idle idle
        refine .inr ⟨r, ?_, ?_⟩
        · rw [hhandle]
          dsimp only [awaitTurn]
          rw [client_setClient, if_pos rfl]
        · rw [hhandle]
          refine .waiting ?_ ((s.bench.reportsOf_queue n _ _).trans hreports)
          refine (Bench.turnsOf_queue orderly.sound.free _ _).trans ?_
          rw [hturns, if_pos rfl, List.nil_append]

/-- The failures with which a request for a run is refused. -/
def refuses : Failure → Bool
  | .notFound _ _ | .invalidDocument _ _ _ | .missingLayout _ | .runActive => true
  | _ => false

/-- What a turn has done that is reported to be over. -/
theorem launching_of_reported {b : Bench} (h : Launching n b ds) {result : Except Failure String}
    (reported : turnOf? n b.reports = some result) :
    (∀ text, result = .ok text → ∃ start, ds = Dealing.untilHomed start) ∧
      ∀ f, result = .error f → f.isOfLink = true := by
  obtain ⟨rest, hreports⟩ := Bench.reportsOf_of_turnOf? reported
  cases h with
  | waiting turns reports => cases reports.symm.trans hreports
  | linking start unhomed unlinked hc turns reports => cases reports.symm.trans hreports
  | homing start unhomed hc turns reports => cases reports.symm.trans hreports
  | ended result' ds turns reports ok error =>
    obtain ⟨hresult, -⟩ := List.cons.inj (reports.symm.trans hreports)
    cases hresult
    exact ⟨ok, error⟩

/-- A request whose turn is over is refused for a run under way or for want of a layout, and then
nothing has failed in its turn. -/
theorem refused_of_over {b : Bench} (hs : b.Sound) (h : Launching n b ds) {r : RunRequest}
    {result : Except Failure String} (reported : turnOf? n b.reports = some result) {f : Failure}
    (refused : (Service.finish (clearReports b n) (.launch r) result).2 = .error f)
    (refuses : refuses f = true) :
    (f = .runActive ∨ ∃ side, f = .missingLayout side) ∧
      ∃ start, ds = Dealing.untilHomed start := by
  obtain ⟨ok, error⟩ := launching_of_reported h reported
  cases result with
  | error g =>
    cases refused
    -- what a link can tell of refuses nobody
    have hlink := error f rfl
    cases f <;> simp_all [Failure.isOfLink, Server.refuses]
  | ok text =>
    refine ⟨?_, ok text rfl⟩
    cases hr : (clearReports b n).request r with
    | ok b' => simp only [Service.finish, hr, reduceCtorEq] at refused
    | error g =>
      simp only [Service.finish, hr, Except.error.injEq] at refused
      subst refused
      exact (Bench.request_refused (Bench.sound_clearReports hs n) hr).1.imp_left And.left

/-- **When a refused request for a run leaves the machine alone.**  A request that is answered at
once has changed nothing.  Another one waits for its turn, and whatever happens meanwhile: if it is
then refused, this is for a run under way or for want of a layout, and its turn has asked for
nothing and changed nothing exactly if the plotter was homed when it began; else the plotter has
been homed, over a link that was made if there was none. -/
theorem refused_run {settings : MotionSettings} {store : Store} {disk : Disk} {before : List Event}
    (genuine : ∀ e ∈ before, e.isGenuine = true) {n : Nat}
    (idle : ((steps { bench := .fresh settings, store, disk } before).client n).awaited = none)
    (c : Client) (id : Option String) (script : String) (left right : Option String)
    (side : Option Side) :
    let s := steps { bench := .fresh settings, store, disk } before
    let s' := s.handle n c ⟨id, .runScript script left right side⟩
    ((s'.client n).awaited = none → s'.bench = s.bench) ∧
      ∀ (during : List Event) (f : Failure), (∀ e ∈ during, e.isGenuine = true) →
        s'.AwaitsThrough n during → (s'.steps during).failure? n = some f → refuses f = true →
          (f = .runActive ∨ ∃ side, f = .missingLayout side) ∧
            ∃ start, s'.dealings n during = Dealing.untilHomed start ∧
              ((∀ d ∈ s'.dealings n during, d.Idle) ↔ start.pose.homed = true) := by
  intro s s'
  have orderly : s.Orderly := (Orderly.of_fresh settings store disk).steps genuine
  have orderly' : s'.Orderly := orderly.goes (goes_of_handle idle c _)
  rcases handle_runScript orderly idle c id script left right side with
    ⟨answered, same⟩ | ⟨r, awaits, launching⟩
  · refine ⟨fun _ => same, fun during f _ through => ?_⟩
    have waits : (s'.client n).awaited.isSome = true := by
      cases during with
      | nil => exact through
      | cons => exact through.1
    rw [answered] at waits
    cases waits
  · refine ⟨fun answered => ?_, fun during f genuine through failure refuses => ?_⟩
    · cases awaits.symm.trans answered
    · obtain ⟨hawaited, hsteps⟩ := launching_steps launching orderly' genuine through
      rw [failure?, hawaited, awaits, Option.bind_some] at failure
      obtain ⟨result, reported, failure⟩ := Option.bind_eq_some_iff.mp failure
      obtain ⟨hf, start, hds⟩ := refused_of_over (orderly'.steps genuine).sound hsteps reported
        (Bench.failure?_eq_some.mp failure) refuses
      rw [List.nil_append] at hds
      refine ⟨hf, start, hds, ?_⟩
      rw [hds]
      exact Dealing.idle_untilHomed_iff start

/-- A disk with a script that has no steps. -/
def withScript : Disk :=
  { entries := [(["scripts"], .directory),
      (["scripts", "none.json"], .file (Text.Utf8.encode "\x7b\"steps\":[]\x7d"))] }

/-- A server with that script. -/
def scripted : Server :=
  { bench := .fresh {}, disk := withScript }

/-- A client asks for a run of the script, and says no layout. -/
def asksForRun (s : Server) : Server :=
  s.handle 0 {} ⟨none, .runScript "none" none none none⟩

/-- The plotter is homed by hand. -/
def homedByHand : List Event :=
  [.bench (.queue .operator [.operate .home]), .bench .proceed, .bench (.answer (.ok "")),
    .bench (.answer (.ok "ok\n"))]

theorem refused_run_homedByHand :
    let s := asksForRun (scripted.steps homedByHand)
    (∀ e ∈ homedByHand, e.isGenuine = true) ∧
      ((scripted.steps homedByHand).client 0).awaited = none ∧
      s.AwaitsThrough 0 [.bench .proceed] ∧
      (s.steps [.bench .proceed]).failure? 0 = some (.missingLayout .left) ∧
      ∃ start, s.dealings 0 [.bench .proceed] = Dealing.untilHomed start ∧
        ((∀ d ∈ s.dealings 0 [.bench .proceed], d.Idle) ↔ start.pose.homed = true) := by
  intro s
  have genuine : ∀ e ∈ homedByHand, e.isGenuine = true := by
    simp [homedByHand, Event.isGenuine, Bench.Event.isGenuine, Bench.Event.isClients]
  have proceeds : ∀ e ∈ [Event.bench .proceed], e.isGenuine = true :=
    List.forall_mem_singleton.mpr rfl
  have idle : ((scripted.steps homedByHand).client 0).awaited = none := rfl
  have awaits : s.AwaitsThrough 0 [.bench .proceed] :=
    ⟨by decide +kernel,
      show ((s.steps [.bench .proceed]).client 0).awaited.isSome = true by decide +kernel⟩
  have failure : (s.steps [.bench .proceed]).failure? 0 = some (.missingLayout .left) := by
    decide +kernel
  have hrefused := refused_run genuine idle {} none "none" none none none
  exact ⟨genuine, idle, awaits, failure, (hrefused.2 _ _ proceeds awaits failure rfl).2⟩

/-- **A refused request that moves the machine**: nothing has been homed yet, so the request homes
the plotter, and then it is refused for want of a layout. -/
theorem refused_run_homes :
    let s := asksForRun scripted
    let s' := s.steps [.bench .proceed, .bench (.answer (.ok "")), .bench (.answer (.ok "ok\n"))]
    s'.failure? 0 = some (.missingLayout .left) ∧
      (scripted.bench.controller.linked || scripted.bench.controller.pose.homed) = false ∧
      (s'.bench.controller.linked && s'.bench.controller.pose.homed) = true ∧
      (s'.bench.log.map fun entry => (entry.owner, entry.line.text)) = [(.client 0, "G28")] :=
  ⟨by decide +kernel, rfl, by decide +kernel, by decide +kernel⟩

end Server

end Stylus
