import Stylus.Proofs.Run.Homed
import Stylus.Proofs.Server.Refused

/-!
# Runs that clients have begun

A request for a run homes the plotter in its turn, if it is not homed, and the run is begun later,
when the client's session goes on; others have the controller in between.  Since homing is never
taken back, the plotter is homed when the run is begun, and as long as it lasts.

* `Server.Readies` — the invariant: a request for a run whose turn went well has left a homed
  plotter;
* `Server.accepting?` — a client is told that its run is begun;
* `Server.accepted_run_homed` — **such a run never lacks homing.**
-/

set_option autoImplicit false

namespace Stylus

namespace Bench

theorem homing_clearReports {b : Bench} (h : Homing b) (n : Nat) :
    Homing (Server.clearReports b n) :=
  ⟨h.steered, h.logged⟩

/-- The dealing that an event is leaves the controller as the event does. -/
theorem after_dealings {b : Bench} (hs : b.Sound) {n : Nat} {e : Event} {d : Dealing}
    (h : d ∈ b.dealings n e) : d.after = (b.step e).controller := by
  rw [dealings] at h
  rcases step_work hs e with ⟨moving, -⟩ | ⟨turn, c, st, moving, controller, -⟩ <;>
    rw [moving] at h
  · cases h
  · dsimp only at h
    split at h
    · rw [List.mem_singleton.mp h, controller]
    · cases h

end Bench

/-- The turn of a request for a run that went well has left the plotter homed. -/
theorem Dealing.homed_of_untilHomed (start : Controller) :
    ∃ d ∈ untilHomed start, d.after.pose.homed = true := by
  rw [untilHomed]
  by_cases homed : start.pose.homed = true
  · rw [if_pos homed]
    exact ⟨_, List.mem_singleton.mpr rfl, homed⟩
  · rw [if_neg homed]
    exact ⟨_, List.mem_append_right _ (List.mem_singleton.mpr rfl), rfl⟩

namespace Server

variable {s s' : Server} {n : Nat}

/-! ## Requests for runs that wait -/

/-- How far the turn of a request for a run has come; if it homed the plotter, or found it homed,
then the plotter is. -/
def Ready (n : Nat) (b : Bench) : Prop :=
  ∃ ds, Launching n b ds ∧ ∀ d ∈ ds, d.after.pose.homed = true → b.controller.pose.homed = true

theorem Ready.homed {b : Bench} (h : Ready n b) {text : String}
    (reported : turnOf? n b.reports = some (.ok text)) : b.controller.pose.homed = true := by
  obtain ⟨ds, launching, homed⟩ := h
  obtain ⟨start, rfl⟩ := (launching_of_reported launching reported).1 text rfl
  obtain ⟨d, hd, hhomed⟩ := Dealing.homed_of_untilHomed start
  exact homed d hd hhomed

theorem pending_ne_launch {store : Store} {b : Bench} {request : Request} {stages : List Stage}
    {pending : Pending} (begun : Service.begin store b request = .turn stages pending)
    (r : RunRequest) : pending ≠ .launch r := by
  cases request with
  | runScript script left right side =>
    rw [Service.begin] at begun
    split at begun <;> cases begun
  | learn layout side position x y =>
    rw [Service.begin] at begun
    split at begun <;> cases begun
  | _ =>
    cases begun
    try rintro ⟨⟩

/-- A request for a run that has just been read waits for its turn. -/
theorem Queues.ready {e : Envelope} {b : Bench} {id : Option String} {r : RunRequest}
    (h : Queues s n e b ⟨id, .launch r⟩) (orderly : s.Orderly)
    (idle : (s.client n).awaited = none) : Ready n b := by
  cases h with
  | turn begun => exact absurd rfl (pending_ne_launch begun r)
  | launch begun read =>
    obtain ⟨hturns, hreports⟩ := orderly.of_idle idle
    refine ⟨[], .waiting ?_ ((s.bench.reportsOf_queue n _ _).trans hreports), by simp⟩
    rw [Bench.turnsOf_queue orderly.sound.free, hturns, if_pos rfl, List.nil_append]

/-- **Whoever waits for a run to begin is ready for it.** -/
def Readies (s : Server) : Prop :=
  ∀ n id r, (s.client n).awaited = some ⟨id, .launch r⟩ → Ready n s.bench

/-- The controller is left homed by what the bench and the clients do. -/
theorem homed_event (orderly : s.Orderly) {e : Event} (genuine : e.isGenuine = true)
    (homed : s.bench.controller.pose.homed = true) :
    (s.step e).bench.controller.pose.homed = true :=
  bench_step (P := fun b => b.controller.pose.homed = true)
    (fun _ e hs _ homed => Bench.homed_step hs homed e) (fun _ _ homed => homed) orderly
    genuine homed

theorem after_dealt (orderly : s.Orderly) {e : Event} {d : Dealing} (h : d ∈ dealt n s e) :
    d.after = (s.step e).bench.controller := by
  cases e with
  | bench e => exact Bench.after_dealings orderly.sound h
  | _ => cases h

theorem Readies.step (h : s.Readies) (orderly : s.Orderly) {e : Event}
    (genuine : e.isGenuine = true) : (s.step e).Readies := by
  intro n id r waiting
  rcases awaited_of_step waiting with same | ⟨idle, line, request, -, queued⟩
  · obtain ⟨ds, launching, homed⟩ := h n id r same
    have awaits : (s.client n).awaited.isSome = true := by
      rw [same]
      rfl
    have still : ((s.step e).client n).awaited.isSome = true := by
      rw [waiting]
      rfl
    refine ⟨_, launching_step launching orderly genuine awaits still, fun d hd hhomed => ?_⟩
    rcases List.mem_append.mp hd with hd | hd
    · exact homed_event orderly genuine (homed d hd hhomed)
    · exact after_dealt orderly hd ▸ hhomed
  · exact queued.ready orderly idle

theorem Readies.steps (h : s.Readies) (orderly : s.Orderly) {events : List Event}
    (genuine : ∀ e ∈ events, e.isGenuine = true) : (s.steps events).Readies := by
  induction events generalizing s with
  | nil => exact h
  | cons e events ih =>
    have hgenuine := genuine e List.mem_cons_self
    exact ih (h.step orderly hgenuine) (orderly.step hgenuine)
      fun e' he' => genuine e' (List.mem_cons_of_mem _ he')

theorem Readies.of_fresh (settings : MotionSettings) (store : Store) (disk : Disk) :
    Readies { bench := .fresh settings, store, disk } := by
  intro n id r waiting
  cases waiting

/-! ## Runs that are begun -/

/-- If the client's session goes on by telling it that the run which it has asked for is begun: the
request, and the server then. -/
def accepting? (s : Server) (n : Nat) : Option (RunRequest × Server) :=
  match (s.client n).awaited, turnOf? n s.bench.reports, s.move? n with
  | some ⟨_, .launch r⟩, some result, some s' =>
    match (Service.finish (clearReports s.bench n) (.launch r) result).2 with
    | .ok _ => some (r, s')
    | .error _ => none
  | _, _, _ => none

/-- **What holds of a run, from its beginning on, that a client was told is begun.** -/
structure NeverLacksHoming (s : Server) : Prop where
  /-- homing was acknowledged before the run began -/
  acknowledged : Bench.HomingLogged s.bench.log
  /-- and so before every command of the run: what is sent later is put on record in front -/
  recorded : ∀ events, (∀ e ∈ events, e.isGenuine = true) →
    ∃ sent, (s.steps events).bench.log = sent ++ s.bench.log
  /-- the plotter is homed as long as the run lasts, and longer -/
  homed : ∀ events, (∀ e ∈ events, e.isGenuine = true) →
    (s.steps events).bench.controller.pose.homed = true
  /-- the run does not end for want of homing -/
  ends : ∀ events e, (∀ e ∈ events, e.isGenuine = true) → e.isGenuine = true →
    (s.steps events).bench.ending? e ≠ some (.error .notHomed)
  /-- nor is anybody told so -/
  lastError : ∀ events, (∀ e ∈ events, e.isGenuine = true) →
    (s.steps events).bench.runner.progress.lastError ≠ some .notHomed

/-- Who is told that its run is begun has had its turn, and the run is begun. -/
theorem begins_of_accepting? {r : RunRequest} (h : s.accepting? n = some (r, s')) :
    s.move? n = some s' ∧
      (∃ id text, (s.client n).awaited = some ⟨id, .launch r⟩ ∧
        turnOf? n s.bench.reports = some (.ok text)) ∧
      (clearReports s.bench n).request r = .ok s'.bench := by
  rw [accepting?] at h
  split at h
  · rename_i id r' result s'' waiting reported moves
    split at h
    · rename_i answer accepted
      cases h
      refine ⟨moves, ?_⟩
      obtain ⟨session, -⟩ := goes_of_move? moves
      generalize s'.bench = bench at session ⊢
      generalize (s'.client n).awaited = awaited at session
      cases result with
      | error f => cases accepted
      | ok text =>
        refine ⟨⟨id, text, waiting, reported⟩, ?_⟩
        cases session with
        | ends awaited waiting' result' reported' =>
          obtain rfl := Option.some.inj (waiting'.symm.trans waiting)
          obtain rfl := Option.some.inj (reported'.symm.trans reported)
          cases hr : (clearReports s.bench n).request r with
          | ok b => simp only [Service.finish, hr]
          | error f => simp only [Service.finish, hr, reduceCtorEq] at accepted
        | answers idle => cases idle.symm.trans waiting
        | wishes idle => cases idle.symm.trans waiting
        | waits idle => cases idle.symm.trans waiting
    · cases h
  · cases h

/-- From a homed plotter on, and with no failure told of the last run. -/
theorem neverLacksHoming (orderly : s.Orderly) (homing : Bench.Homing s.bench)
    (homed : s.bench.controller.pose.homed = true)
    (fine : s.bench.runner.progress.lastError ≠ some .notHomed) : s.NeverLacksHoming := by
  have later {events : List Event} (genuine : ∀ e ∈ events, e.isGenuine = true) :
      (s.steps events).bench.controller.pose.homed = true ∧
        (∃ sent, (s.steps events).bench.log = sent ++ s.bench.log) ∧
        (s.steps events).bench.runner.progress.lastError ≠ some .notHomed := by
    refine bench_steps (P := fun b => b.controller.pose.homed = true ∧
      (∃ sent, b.log = sent ++ s.bench.log) ∧ b.runner.progress.lastError ≠ some .notHomed)
      (fun b e hs genuine h => ?_) (fun b n h => h) orderly genuine ⟨homed, ⟨[], rfl⟩, fine⟩
    obtain ⟨homed, ⟨sent, hlog⟩, fine⟩ := h
    refine ⟨Bench.homed_step hs homed e, ⟨b.entries e ++ sent, ?_⟩,
      Bench.lastError_step hs homed genuine fine⟩
    rw [Bench.move_log (b.move e), hlog, List.append_assoc]
  exact
    { acknowledged := homing.logged homed
      recorded := fun events genuine => (later genuine).2.1
      homed := fun events genuine => (later genuine).1
      ends := fun events e genuine hgenuine =>
        Bench.ending?_ne_notHomed (orderly.steps genuine).sound (later genuine).1 hgenuine
      lastError := fun events genuine => (later genuine).2.2 }

/-- **A run that a client was told is begun never lacks homing.**  Whatever has been done before and
whatever others do between the turn in which the request homed the plotter and the beginning of the
run: when the client is told so, the run of its plan is under way, homing has been acknowledged
before all of its commands, and however it goes on, with other requests, motors off, lost links and
new ones, it does not end for want of homing. -/
theorem accepted_run_homed {settings : MotionSettings} {store : Store} {disk : Disk}
    {before : List Event} (genuine : ∀ e ∈ before, e.isGenuine = true) {n : Nat} {r : RunRequest}
    {s' : Server}
    (accepted :
      (steps { bench := .fresh settings, store, disk } before).accepting? n = some (r, s')) :
    (∃ plan, r.plan = .ok plan ∧
        s'.bench.run = some { plan, cursor := .start plan.script.iterationCount }) ∧
      s'.NeverLacksHoming := by
  have fresh : Orderly { bench := .fresh settings, store, disk } :=
    .of_fresh settings store disk
  have orderly := fresh.steps genuine
  have readies := (Readies.of_fresh settings store disk).steps fresh genuine
  have homing := bench_steps (P := Bench.Homing) (fun b e hs _ h => h.step hs e)
    (fun b n h => Bench.homing_clearReports h n) fresh genuine (Bench.Homing.of_fresh settings)
  generalize steps { bench := .fresh settings, store, disk } before = s at *
  obtain ⟨moves, ⟨id, text, waiting, reported⟩, request⟩ := begins_of_accepting? accepted
  have hclear := Bench.sound_clearReports orderly.sound n
  obtain ⟨idle, plan, planned, hbench⟩ := Bench.request_accepted hclear request
  have homed := (readies n id r waiting).homed reported
  refine ⟨⟨plan, planned, by rw [hbench]⟩, ?_⟩
  refine neverLacksHoming (orderly.goes (goes_of_move? moves)) ?_ ?_ ?_
  · rw [hbench]
    exact ⟨homing.steered, homing.logged⟩
  · rw [hbench]
    exact homed
  · simp [hbench]

/-- A disk with a script that loads the plotter, and a layout without positions. -/
def withLoading : Disk :=
  { entries := [(["scripts"], .directory), (["layouts"], .directory),
      (["scripts", "load.json"], .file (Text.Utf8.encode "\x7b\"steps\":[[\"load\"]]\x7d")),
      (["layouts", "none.json"], .file (Text.Utf8.encode "\x7b\"positions\":\x7b\x7d\x7d"))] }

/-- A client asks for a run of the script, and the request homes the plotter; before its session
goes on, another client has the motors turned off. -/
def loading : List Event :=
  [.receive 0 (Text.Utf8.encode ((Json.table [("cmd", .text "run_script"),
      ("script", .text "load"), ("layout_left", .text "none")]).compact ++ "\n")), .move 0,
    .receive 1 (Text.Utf8.encode ((Json.table [("cmd", .text "off")]).compact ++ "\n")), .move 1,
    .bench .proceed, .bench (.answer (.ok "")), .bench (.answer (.ok "ok\n")),
    .bench .proceed, .bench (.answer (.ok "ok\n")), .move 1]

theorem accepted_run_homed_loading :
    (∀ e ∈ loading, e.isGenuine = true) ∧
      ∃ r s', (steps { bench := .fresh {}, disk := withLoading } loading).accepting? 0 =
          some (r, s') ∧
        (∃ plan, r.plan = .ok plan ∧
          s'.bench.run = some { plan, cursor := .start plan.script.iterationCount }) ∧
        s'.NeverLacksHoming := by
  have genuine : ∀ e ∈ loading, e.isGenuine = true := by
    simp [loading, Event.isGenuine, Bench.Event.isGenuine, Bench.Event.isClients]
  have accepts : ((steps { bench := .fresh {}, disk := withLoading } loading).accepting?
      0).isSome = true := by
    decide +kernel
  obtain ⟨⟨r, s'⟩, accepted⟩ := Option.isSome_iff_exists.mp accepts
  exact ⟨genuine, r, s', accepted, accepted_run_homed genuine accepted⟩

end Server

end Stylus
