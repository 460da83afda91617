import Stylus.Config.Search
import Stylus.Proofs.Protocol.Numbers
import Stylus.Proofs.Server.Launched
import Stylus.Proofs.Store.Reach

/-!
# Everything that is sent is well spelt

A number that gets into a command comes from a request, from a layout, or from the settings.
Requests and layouts are read from documents, so their numbers are finite.  Settings are not: `inf`
and `nan` are numbers there, and a configuration is looked at for them in the speed limits and the
feed rate only.  The depths of contacts and the position for loading are taken as they are.

* `Server.Spells` — the invariant: no number that is, or may yet be, sent is anything but finite;
* `Server.Spells.step` — **it is kept**, whatever clients ask for and whatever is on the disk;
* `Server.sent_wellSpelt` — with depths and a position that are finite, everything that is ever sent
  is well spelt;
* `Server.sent_infiniteDepth` — with a depth that is not, a tap is not.
-/

set_option autoImplicit false

namespace Stylus

/-! ## What is read from the disk -/

namespace Filing

variable {α : Type} {allowed : FileAct → Prop} {yields : α → Prop}

/-- What work yields that is carried out. -/
theorem Within.run {work : Filing α} (h : Within allowed yields work) (d : Disk) :
    yields (Filing.run d work).2 := by
  induction h generalizing d with
  | done yielded => exact yielded
  | act _ _ ih => exact ih _ _

end Filing

namespace Store

variable {α : Type} {P : α → Prop} {allowed : FileAct → Prop}

/-- What a document is read as has the property, if the reader yields it. -/
theorem yields_decode {kind : DocumentKind} {name : String} {reader : Reader α}
    (h : reader.Yields P) {content : List UInt8} {a : α}
    (decoded : decode kind name reader content = .ok a) : P a := by
  rw [decode] at decoded
  split at decoded
  · cases decoded
  · split at decoded
    · rename_i read
      cases decoded
      exact h.ofText read
    · cases decoded

theorem yields_loadDocument {directory name : String} {kind : DocumentKind} {reader : Reader α}
    (h : reader.Yields P) :
    Within (fun _ => True) P (loadDocument directory kind name reader) :=
  within_loadDocument (fun _ _ => trivial) fun _ _ _ => yields_decode h

theorem yields_loadLayout (store : Store) (name : String) :
    Within (fun _ => True) Layout.Finite (store.loadLayout name) := by
  refine (yields_loadDocument Layout.yields_reader).bind fun layout hlayout => within_pure ?_
  split
  · exact hlayout
  · exact hlayout

end Store

/-- The layouts of a run are read from documents. -/
theorem Service.yields_documents (store : Store) (script : String) (left right : Option String)
    (side : Option Side) :
    Store.Within (fun _ => True) RunRequest.Finite (documents store script left right side) := by
  have optional (wanted : Option String) :
      Store.Within (fun _ => True) (fun o => ∀ layout ∈ o, layout.Finite)
        (optionalLayout store wanted) := by
    match wanted with
    | none => exact Store.within_pure nofun
    | some name =>
      exact (store.yields_loadLayout name).bind fun layout hlayout =>
        Store.within_pure fun _ hm => Option.mem_some.mp hm ▸ hlayout
  have hscript : Store.Within (fun _ => True) (fun _ => True) (store.loadScript script) :=
    (Store.yields_loadDocument .any).bind fun _ _ => Store.within_pure trivial
  refine hscript.bind fun _ _ => ?_
  refine (optional left).bind fun left hleft => ?_
  refine (optional right).bind fun right hright => Store.within_pure fun s => ?_
  match s with
  | .left => exact hleft
  | .right => exact hright

/-- What a request asks for at the controller has no other numbers than the request. -/
theorem Service.finite_begin {store : Store} {b : Bench} {request : Request} (h : request.Finite)
    {stages : List Stage} {pending : Pending}
    (begun : begin store b request = .turn stages pending) : ∀ stage ∈ stages, stage.Finite := by
  match request, h with
  | .tap, _ | .home, _ | .off, _ | .info, _ | .load, _ =>
    cases begun
    exact List.forall_mem_singleton.mpr trivial
  | .moveAbsolute _ _, h | .moveRelative _ _, h | .moveToPosition _, h =>
    cases begun
    exact List.forall_mem_singleton.mpr h
  | .runScript _ _ _ _, _ =>
    rw [begin] at begun
    split at begun <;> cases begun
  | .learn _ _ _ _ _, _ =>
    rw [begin] at begun
    split at begun <;> cases begun

/-- A run that a request asks for has layouts that were read from documents. -/
theorem Service.finite_preparing {store : Store} {b : Bench} {request : Request}
    {work : Storing RunRequest} (begun : begin store b request = .preparing work) :
    Store.Within (fun _ => True) RunRequest.Finite work := by
  match request with
  | .runScript script left right side =>
    rw [begin] at begun
    split at begun
    · cases begun
    · cases begun
      exact yields_documents store script left right side
  | .learn _ _ _ _ _ =>
    rw [begin] at begun
    split at begun <;> cases begun
  | .tap | .home | .off | .info | .load | .moveAbsolute _ _ | .moveRelative _ _ | .moveToPosition _
  | .pauseScript | .resumeScript | .stopScript | .getStatus | .getPosition | .getState
  | .listScripts | .listLayouts => cases begun

/-! ## Events -/

namespace Bench.Event

/-- A run or an operation that is asked for has finite numbers. -/
def Finite : Event → Prop
  | request r => r.Finite
  | queue _ stages => ∀ stage ∈ stages, stage.Finite
  | _ => True

variable {settings : MotionSettings} {e : Event}

theorem sends_of_finite (hs : settings.Finite) (h : e.Finite) : e.Sends Gcode.Finite settings := by
  match e, h with
  | request r, h => exact RunRequest.Finite.sends h hs
  | queue guest stages, h => exact fun stage hstage => Stage.sends_of_finite hs (h stage hstage)
  | pass _, _ | pause, _ | resume, _ | stop, _ | withdraw _, _ | proceed, _ | wake, _ | answer _, _
  | decide, _ | poll, _ => exact trivial

theorem finite_of_wish (h : e.wish?.isSome = true) : e.Finite := by
  match e, h with
  | pause, _ | resume, _ | stop, _ => exact trivial

end Bench.Event

namespace Server

/-- What comes from nobody's session has finite numbers. -/
def Event.Finite : Event → Prop
  | bench e => e.Finite
  | receive _ _ | hangUp _ | move _ => True

/-! ## The invariant -/

/-- **No number that is sent, or may yet be sent, is anything but finite.** -/
structure Spells (s : Server) : Prop where
  bench : s.bench.Sends Gcode.Finite
  settings : s.bench.controller.settings.Finite
  /-- the layouts of a run that waits for the plotter to be homed -/
  waiting : ∀ n id r, (s.client n).awaited = some ⟨id, .launch r⟩ → r.Finite

/-- The bench after an event sends finite numbers only, with the settings of the bench before it. -/
def KeepsSpelling (b b' : Bench) : Prop :=
  b'.Sends Gcode.Finite ∧ b'.controller.settings = b.controller.settings

namespace Spells

variable {s s' : Server} {n : Nat}

theorem keeps_event (h : s.Spells) {e : Bench.Event} (he : e.Finite) :
    KeepsSpelling s.bench (s.bench.step e) :=
  ⟨h.bench.step (Bench.Event.sends_of_finite h.settings he), Bench.move_settings (s.bench.move e)⟩

/-- A request that comes to wait for a turn. -/
theorem queues (h : s.Spells) {line : String} {e : Envelope} (parsed : Envelope.ofLine line = .ok e)
    {bench : Bench} {awaited : Awaited} (queues : Queues s n e bench awaited) :
    KeepsSpelling s.bench bench ∧ ∀ r, awaited.pending = .launch r → r.Finite := by
  have queued {stages : List Stage} (hstages : ∀ stage ∈ stages, stage.Finite) :
      KeepsSpelling s.bench (s.bench.queue (.client n) stages) :=
    h.keeps_event (e := .queue (.client n) stages) hstages
  rcases queues with begun | ⟨begun, read⟩
  · refine ⟨queued (Service.finite_begin (Envelope.finite_of_ofLine parsed) begun), ?_⟩
    exact fun r hr => absurd hr (pending_ne_launch begun r)
  · refine ⟨queued (List.forall_mem_singleton.mpr trivial), ?_⟩
    rintro r ⟨⟩
    have finite := (Service.finite_preparing begun).run s.disk
    rw [read] at finite
    exact finite _ rfl

/-- A session that goes on. -/
theorem moves (h : s.Spells) (moves : s.move? n = some s') : KeepsSpelling s.bench s'.bench := by
  obtain ⟨session, -⟩ := goes_of_move? moves
  have asked (idle : (s.client n).awaited = none) (awaited : Awaited)
      (waits : (s'.client n).awaited = some awaited) : KeepsSpelling s.bench s'.bench := by
    obtain ⟨line, e, parsed, queues⟩ := queues_of_move? moves idle waits
    exact (h.queues parsed queues).1
  generalize s'.bench = bench at session asked ⊢
  generalize (s'.client n).awaited = after at session asked
  rcases session with idle | ⟨idle, e, wish⟩ | ⟨idle, stages, awaited⟩ |
    ⟨awaited, waited, result, -⟩
  · exact ⟨h.bench, rfl⟩
  · exact h.keeps_event (Bench.Event.finite_of_wish wish)
  · exact asked idle awaited rfl
  · have cleared : (clearReports s.bench n).Sends Gcode.Finite :=
      h.bench.of_frame (fun _ ht => ht) rfl (fun run hrun => ⟨run, hrun, rfl⟩) rfl
    rcases finish_cases (clearReports s.bench n) awaited.pending result with
      same | ⟨r, pending, begins⟩
    · rw [same]
      exact ⟨cleared, rfl⟩
    · rw [begins]
      have finite : r.Finite := h.waiting n awaited.id r (by rw [waited, ← pending])
      have settings := Bench.move_settings ((clearReports s.bench n).move (.request r))
      exact ⟨cleared.step (finite.sends h.settings), settings⟩

theorem step (h : s.Spells) {e : Event} (he : e.Finite) : (s.step e).Spells := by
  have keeps : KeepsSpelling s.bench (s.step e).bench := by
    match e, he with
    | .bench e, he => exact h.keeps_event he
    | .receive _ _, _ | .hangUp _, _ => exact ⟨h.bench, rfl⟩
    | .move n, _ =>
      show KeepsSpelling s.bench ((s.move? n).getD s).bench
      rcases hm : s.move? n with _ | s'
      · exact ⟨h.bench, rfl⟩
      · exact h.moves hm
  refine ⟨keeps.1, by rw [keeps.2]; exact h.settings, fun n id r waiting => ?_⟩
  rcases awaited_of_step waiting with same | ⟨-, line, request, parsed, queues⟩
  · exact h.waiting n id r same
  · exact (h.queues parsed queues).2 r rfl

theorem steps (h : s.Spells) {events : List Event} (finite : ∀ e ∈ events, e.Finite) :
    (s.steps events).Spells := by
  induction events generalizing s with
  | nil => exact h
  | cons e events ih =>
    obtain ⟨he, hevents⟩ := List.forall_mem_cons.mp finite
    exact ih (h.step he) hevents

theorem of_fresh {settings : MotionSettings} (hs : settings.Finite) (store : Store) (disk : Disk) :
    Spells { bench := .fresh settings, store, disk } :=
  ⟨.of_fresh settings, hs, by rintro n id r ⟨⟩⟩

end Spells

/-! ## Configurations -/

theorem finite_of_isSpeed {x : Float} (h : Config.isSpeed x = true) : Number.isFinite x = true := by
  rw [Config.isSpeed, Bool.and_eq_true] at h
  exact h.1

/-- In a configuration without a flaw the speed limits and the feed rate are finite. -/
theorem finite_of_flaw? {c : Config} (valid : c.flaw? = none) :
    (Gcode.maxFeed c.device.speedLimits).Finite ∧ Number.isFinite c.motion.feedRate = true := by
  have speeds : c.hasSpeedLimits = true ∧ Config.isSpeed c.motion.feedRate = true := by
    rw [Config.flaw?] at valid
    grind
  refine ⟨fun x hx => finite_of_isSpeed ?_, finite_of_isSpeed speeds.2⟩
  have limits := List.all_eq_true.mp speeds.1
  refine limits x ?_
  simp only [Gcode.values, List.mem_cons, List.not_mem_nil, or_false] at hx
  rcases hx with rfl | rfl | rfl | rfl <;> simp

/-- **Everything that is sent is well spelt**, with a configuration that has no flaw and whose
depths and position for loading are finite: what is sent while a link is made, and whatever clients
ask for and whatever is on the disk. -/
theorem sent_wellSpelt {c : Config} (valid : c.flaw? = none)
    (tapDepth : Number.isFinite c.motion.tapDepth = true)
    (swipeDepth : Number.isFinite c.motion.swipeDepth = true)
    (loadPosition : Number.isFinite c.motion.loadPosition = true) (store : Store) (disk : Disk)
    {events : List Event} (finite : ∀ e ∈ events, e.Finite) :
    let s := steps { bench := .fresh c.motion, store, disk } events
    (∀ line ∈ Gcode.finish :: Gcode.initialization c.device.speedLimits,
        line.Finite ∧ line.WellSpelt) ∧
      (∀ entry ∈ s.bench.log, entry.line.Finite ∧ entry.line.WellSpelt) ∧
      ∀ work, s.bench.work? = some work → work.line.Finite ∧ work.line.WellSpelt := by
  obtain ⟨limits, feedRate⟩ := finite_of_flaw? valid
  have both {line : Gcode} (h : line.Finite) : line.Finite ∧ line.WellSpelt :=
    ⟨h, Gcode.wellSpelt_of_finite h⟩
  have spells :=
    (Spells.of_fresh ⟨feedRate, tapDepth, swipeDepth, loadPosition⟩ store disk).steps finite
  refine ⟨fun line hline => both ?_, fun entry hentry => both (spells.bench.log entry hentry),
    fun work hwork => both (spells.bench.work hwork)⟩
  simp only [Gcode.initialization, List.mem_cons, List.not_mem_nil, or_false] at hline
  rcases hline with rfl | rfl | rfl | rfl | rfl | rfl
  · exact Gcode.finite_of_no_values rfl
  · exact Gcode.finite_of_no_values rfl
  · exact Gcode.finite_of_no_values rfl
  · exact Gcode.finite_of_no_values rfl
  · exact Gcode.finite_of_no_values rfl
  · exact limits

/-- A client asks for a tap, which is carried out. -/
def tapping : List Event :=
  [.receive 0 (Text.Utf8.encode ((Json.table [("cmd", .text "tap")]).compact ++ "\n")), .move 0,
    .bench .proceed, .bench (.answer (.ok "")), .bench (.answer (.ok "ok\n")),
    .bench (.answer (.ok "ok\n")), .bench (.answer (.ok "ok\n"))]

theorem finite_tapping : ∀ e ∈ tapping, e.Finite := by
  simp [tapping, Event.Finite, Bench.Event.Finite]

theorem sent_wellSpelt_tapping :
    Config.flaw? {} = none ∧
      (steps { bench := .fresh {} } tapping).bench.log.map (·.line.text) =
        ["G0 E-2", "G0 E2", "M83"] ∧
      ∀ entry ∈ (steps { bench := .fresh {} } tapping).bench.log,
        entry.line.Finite ∧ entry.line.WellSpelt := by
  have valid : Config.flaw? {} = none := by decide +kernel
  have sent := sent_wellSpelt valid (by decide +kernel) (by decide +kernel) (by decide +kernel)
    ⟨"scripts", "layouts"⟩ {} finite_tapping
  exact ⟨valid, by decide +kernel, sent.2.1⟩

/-- Settings with a depth of taps that is no finite number. -/
def infiniteDepth : String :=
  "[tap-server.motion]\ntap_depth = inf\n"

/-- **A depth that is infinite gets into a command**, although the configuration has no flaw. -/
theorem sent_infiniteDepth :
    ∃ c, Config.ofText "tap-rs.toml" infiniteDepth = .ok (some c) ∧ c.flaw? = none ∧
      (∀ e ∈ tapping, e.Finite) ∧
      ∃ entry ∈ (steps { bench := .fresh c.motion } tapping).bench.log,
        entry.line.text = "G0 Einf" ∧ ¬entry.line.Finite ∧ ¬entry.line.WellSpelt := by
  have sends : (Config.ofText "tap-rs.toml" infiniteDepth).toOption.join.any (fun c =>
      decide (c.flaw? = none) &&
        (steps { bench := .fresh c.motion } tapping).bench.log.any (·.line.text = "G0 Einf")) =
          true := by
    decide +kernel
  obtain ⟨c, read, sends⟩ := (Option.any_eq_true _ _).mp sends
  replace read := ok_of_toOption (Option.join_eq_some_iff.mp read)
  simp only [Bool.and_eq_true, decide_eq_true_eq, List.any_eq_true] at sends
  obtain ⟨valid, entry, hentry, text⟩ := sends
  have spelling : ¬entry.line.WellSpelt := by
    intro spelt
    have lower := Gcode.isLower_of_wellSpelt spelt 'n' (by rw [text]; decide)
    cases lower
  exact ⟨c, read, valid, finite_tapping, entry, hentry, text,
    fun finite => spelling (Gcode.wellSpelt_of_finite finite), spelling⟩

end Server

end Stylus
