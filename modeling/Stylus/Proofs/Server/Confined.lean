import Stylus.Proofs.Server.Incoming
import Stylus.Proofs.Server.Sessions
import Stylus.Proofs.Store.Reach

/-!
# Files that clients can reach

Clients choose the names of scripts and layouts, and a server does work on files for nobody else.
So along any run each file that is opened was named by a client, and lies where its name belongs.

* `Server.asked?`, `Server.filing` — the request that an event brings up, and its work on files;
* `Server.disk_step` — **the disk changes by that work alone**;
* `Server.Confined`, `Server.names_confined` — **names lead nowhere else, and to nothing in
  common**.
-/

set_option autoImplicit false

namespace Stylus

open Client (heardText)

namespace Server

variable {s s' : Server} {n : Nat}

/-! ## Work on files -/

/-- The request that a client's session takes up when it goes on. -/
def takesUp? (s : Server) (n : Nat) : Option Request :=
  if (s.client n).ended.isSome || (s.client n).awaited.isSome then none
  else
    match (s.client n).next with
    | .line text _ =>
      match heardText text with
      | .asks e => some e.request
      | _ => none
    | _ => none

/-- The request that an event brings up. -/
def asked? (s : Server) : Event → Option Request
  | .move n => s.takesUp? n
  | _ => none

/-- The work on files that an event comes to. -/
def filing (s : Server) (e : Event) : Filing Unit :=
  match s.asked? e with
  | some r => (Service.begin s.store s.bench r).work
  | none => .done ()

/-- All requests that are brought up along events. -/
def requests (s : Server) : List Event → List Request
  | [] => []
  | e :: rest => (s.asked? e).toList ++ (s.step e).requests rest

theorem disk_handle (s : Server) (n : Nat) (c : Client) (e : Envelope) :
    (s.handle n c e).disk = (Filing.run s.disk (Service.begin s.store s.bench e.request).work).1 ∧
      (s.handle n c e).store = s.store := by
  have run_work {α : Type} (work : Storing α) :
      (Filing.run s.disk (do let _ ← work.run : Filing Unit)).1 =
        (Filing.run s.disk work.run).1 := by
    rw [Filing.run_bind_eq]
    rfl
  rw [handle]
  cases Service.begin s.store s.bench e.request with
  | answered bench result => exact ⟨rfl, rfl⟩
  | filing work => exact ⟨(run_work work).symm, rfl⟩
  | preparing work =>
    rw [Begun.work, run_work]
    dsimp only
    cases Filing.run s.disk work.run with
    | mk disk result => cases result <;> exact ⟨rfl, rfl⟩
  | turn stages pending => exact ⟨rfl, rfl⟩

theorem disk_move (s : Server) (n : Nat) :
    (s.step (.move n)).disk = (Filing.run s.disk (s.filing (.move n))).1 ∧
      (s.step (.move n)).store = s.store := by
  rw [filing, asked?, takesUp?, step, move?]
  dsimp only
  cases (s.client n).ended with
  | some => exact ⟨rfl, rfl⟩
  | none =>
    cases (s.client n).awaited with
    | some awaited =>
      dsimp only [Option.isSome, Bool.or_true, if_true]
      cases turnOf? n s.bench.reports <;> exact ⟨rfl, rfl⟩
    | none =>
      dsimp only [Option.isSome, Bool.or_false, if_false]
      cases (s.client n).next with
      | line text rest =>
        dsimp only [Option.getD]
        rw [handleLine, heardText]
        by_cases hblank : (Text.trim text).isEmpty
        · rw [if_pos hblank, if_pos hblank]
          exact ⟨rfl, rfl⟩
        · rw [if_neg hblank, if_neg hblank]
          cases Envelope.ofLine (Text.trim text) with
          | error f => exact ⟨rfl, rfl⟩
          | ok e => exact s.disk_handle n _ e
      | _ => exact ⟨rfl, rfl⟩

/-- **The disk changes by the work of requests alone.** -/
theorem disk_step (s : Server) (e : Event) :
    (s.step e).disk = (Filing.run s.disk (s.filing e)).1 ∧ (s.step e).store = s.store := by
  cases e with
  | move n => exact s.disk_move n
  | bench | receive | hangUp => exact ⟨rfl, rfl⟩

theorem store_steps (s : Server) (events : List Event) : (s.steps events).store = s.store := by
  induction events generalizing s with
  | nil => rfl
  | cons e rest ih => exact (ih _).trans (s.disk_step e).2

/-- What an event asks for serves the request that it brings up. -/
theorem serves_of_asks {e : Event} {a : FileAct} (h : Filing.Asks (s.filing e) a) :
    ∃ r, s.asked? e = some r ∧ a.Serves s.store r := by
  rw [filing] at h
  cases hasked : s.asked? e with
  | none =>
    rw [hasked] at h
    cases h
  | some r =>
    rw [hasked] at h
    exact ⟨r, rfl, (Service.within_begin s.store s.bench r).allowed_of_asks h⟩

open Store in
/-- An event changes only files of a layout that its request records a position in. -/
theorem touched_of_step {e : Event} {q : List String}
    (h : (s.step e).disk.content? q ≠ s.disk.content? q) :
    ∃ r name, s.asked? e = some r ∧ name ∈ r.learns ∧ isPlain name = true ∧
      q ∈ s.store.pathsOf name := by
  by_contra hnone
  apply h
  rw [(s.disk_step e).1, filing]
  cases hasked : s.asked? e with
  | none => rfl
  | some r =>
    let work := (Service.begin s.store s.bench r).work
    have hend : Filing.MayEnd (fun _ => False) s.disk work (Filing.run s.disk work).1
        (Filing.run s.disk work).2 :=
      Filing.run_mayEnd s.disk work
    refine hend.content?_eq (Service.within_begin s.store s.bench r) fun a hserves hq => ?_
    obtain ⟨name, hname, hplain, hpath⟩ := touched_of_serves hserves hq
    exact hnone ⟨r, name, hasked, hname, hplain, hpath⟩

open Store in
/-- **Along any run only files of layouts change** that a request recorded a position in. -/
theorem touched_of_steps {events : List Event} {q : List String}
    (h : (s.steps events).disk.content? q ≠ s.disk.content? q) :
    ∃ r ∈ s.requests events, ∃ name ∈ r.learns, isPlain name = true ∧
      q ∈ s.store.pathsOf name := by
  induction events generalizing s with
  | nil => exact absurd rfl h
  | cons e rest ih =>
    by_cases hrest : ((s.step e).steps rest).disk.content? q = (s.step e).disk.content? q
    · have hstep : (s.step e).disk.content? q ≠ s.disk.content? q := fun hsame =>
        h (hrest.trans hsame)
      obtain ⟨r, name, hasked, hname, hplain, hpath⟩ := touched_of_step hstep
      refine ⟨r, List.mem_append_left _ ?_, name, hname, hplain, hpath⟩
      rw [hasked]
      exact List.mem_cons_self
    · obtain ⟨r, hr, name, hname, hplain, hpath⟩ := ih hrest
      rw [(s.disk_step e).2] at hpath
      exact ⟨r, List.mem_append_right _ hr, name, hname, hplain, hpath⟩

/-! ## Confined -/

open Store

/-- **Clients' names lead nowhere else, and to nothing in common.** -/
structure Confined (s : Server) (events : List Event) : Prop where
  /-- whenever something happens, the disk changes by the work of the request that it brings up, and
  each act that this work can come to ask for serves the request -/
  serves : ∀ before e after, events = before ++ e :: after →
    ((s.steps before).step e).disk =
        (Filing.run (s.steps before).disk ((s.steps before).filing e)).1 ∧
      ∀ a, Filing.Asks ((s.steps before).filing e) a →
        ∃ r, (s.steps before).asked? e = some r ∧ a.Serves s.store r
  /-- a file that is not as it was is the document or the draft of a layout that a request recorded
  a position in -/
  changes : ∀ path, (s.steps events).disk.content? path ≠ s.disk.content? path →
    ∃ r ∈ s.requests events, ∃ name ∈ r.learns, isPlain name = true ∧ path ∈ s.store.pathsOf name
  /-- different names have different documents, of scripts and of layouts -/
  documents : ∀ directory kind name other path path', documentPath directory kind name = .ok path →
    documentPath directory kind other = .ok path' → Path.components path = Path.components path' →
      name = other
  /-- and no draft in common, nor is the draft of one the document of another -/
  drafts : ∀ name other, name ≠ other → ∀ path ∈ s.store.pathsOf name, path ∉ s.store.pathsOf other
  /-- recording a position in a layout changes no other document, whichever acts fail -/
  learns : ∀ (b : Bench) (d : Disk) (mishaps : List (Option Disk.Mishap)) (name : String)
    (side : Side) (position : String) (x y : Option Float)
    (outcome : Disk × Except Failure (Option Json)),
    (Service.begin s.store b (.learn name side position x y)).outcome? mishaps d = some outcome →
      ∀ path, IsDocument path → path ≠ Path.components s.store.layouts ++ [fileName name] →
        outcome.1.content? path = d.content? path

/-- Recording a position changes no file but those of its layout. -/
theorem outcome_of_learn {store : Store} {b : Bench} {d : Disk}
    {mishaps : List (Option Disk.Mishap)} {name position : String} {side : Side}
    {x y : Option Float} {outcome : Disk × Except Failure (Option Json)}
    (h : (Service.begin store b (.learn name side position x y)).outcome? mishaps d = some outcome)
    {path : List String} (hpath : path ∉ store.pathsOf name) :
    outcome.1.content? path = d.content? path := by
  rw [Service.begin] at h
  split at h
  · cases h
    refine (Filing.mayEnd_runWith (fun m hm => hm) d _).content?_eq
      (Service.within_learn (r := .learn name side position x y) List.mem_cons_self
        List.mem_cons_self) fun a hserves htouched => ?_
    obtain ⟨other, hother, -, hmem⟩ := touched_of_serves hserves htouched
    obtain rfl := List.mem_singleton.1 hother
    exact hpath hmem
  · cases h
    rfl

/-- **Clients' names are confined**, in any run of any server. -/
theorem names_confined (s : Server) (events : List Event) : s.Confined events where
  serves before e after hevents := by
    refine ⟨(disk_step _ e).1, fun a ha => ?_⟩
    have hserves := serves_of_asks ha
    rwa [store_steps] at hserves
  changes path hchanged := touched_of_steps hchanged
  documents directory kind name other path path' hname hother hsame :=
    fileName_inj (name_of_path (inside_document hname).2 (inside_document hother).2 hsame)
  drafts name other hother path := not_mem_pathsOf hother
  learns b d mishaps name side position x y outcome houtcome path hdocument hother :=
    outcome_of_learn houtcome fun hmem => hother (eq_of_mem_pathsOf hmem hdocument)

end Server
end Stylus
