import Mathlib.Data.List.Induction
import Mathlib.Logic.Function.Basic
import Stylus.Proofs.Store.Catalogue

/-!
# Positions that are recorded at the same time

To record a position, a request loads the layout, puts the position into it, and saves the layout.
Each client is served on its own, and nothing keeps the request of another one from coming between
the two: what it saves there is lost, for the layout that is saved next was loaded before.

Which positions a file holds follows from what each request found when it loaded the layout.  A
`Lineage` is just that, and a run of the requests follows it step by step, in any order
(`follows_steps`).

* `Lesson.advance` — the next step of a request, `Lessons.steps` — the steps of many, in any order;
* `Lesson.advance_advance` — two steps with nothing between them are the whole request;
* `Lineage` — the requests that a file comes from;
* `Lessons.layoutOn_steps` — what is loaded afterwards;
* `Lessons.recorded_together` — **of two positions, the one that is saved last is kept; the other
  one is kept if and only if its request was over when that one began**;
* `Lessons.recorded_over` — a position that is lost, though its request went well.
-/

set_option autoImplicit false

namespace Stylus

/-- A position to record. -/
structure Recording where
  side : Side
  position : String
  p : Point

namespace Recording

/-- Where the point is recorded. -/
def place (r : Recording) : Side × String :=
  (r.side, r.position)

/-- The deed that it is if nothing comes between its steps. -/
def deed (name : String) (r : Recording) : Deed :=
  .learn name r.side r.position r.p

end Recording

/-! ## Requests, step by step -/

/-- How far a request to record a position is. -/
inductive Lesson where
  /-- it is still to load the layout -/
  | asked
  /-- it has loaded the layout, and is still to save it with the position -/
  | loaded (layout : Layout)
  /-- it is answered -/
  | answered (result : Except Failure (Option Json))

namespace Lesson

/-- The next step of a request: it loads the layout, or saves it with the position. -/
def advance (store : Store) (name : String) (r : Recording) (d : Disk) : Lesson → Disk × Lesson
  | asked =>
    match Filing.run d (Service.layoutToLearn store name).run with
    | (d, .ok layout) => (d, loaded layout)
    | (d, .error f) => (d, answered (.error f))
  | loaded layout =>
    let (d, result) := Filing.run d (Service.saveLearned store layout r.side r.position r.p).run
    (d, answered result)
  | answered result => (d, answered result)

/-- It was answered with success. -/
def succeeded : Lesson → Bool
  | answered result => result.isOk
  | asked | loaded _ => false

/-- It was answered with a failure. -/
def failed : Lesson → Bool
  | answered result => !result.isOk
  | asked | loaded _ => false

theorem not_failed_of_succeeded {l : Lesson} (h : l.succeeded = true) : l.failed = false := by
  cases l with
  | asked | loaded => rfl
  | answered result =>
    rw [succeeded] at h
    rw [failed, h]
    rfl

/-- **A request is its two steps**, if nothing comes between them. -/
theorem advance_advance (store : Store) (name : String) (r : Recording) (d : Disk) :
    (asked.advance store name r d).2.advance store name r (asked.advance store name r d).1 =
      ((Filing.run d (Service.learn store name r.side r.position r.p).run).1,
        answered (Filing.run d (Service.learn store name r.side r.position r.p).run).2) := by
  rw [Service.learn, Store.run_bind, advance]
  cases Filing.run d (Service.layoutToLearn store name).run with
  | mk d₁ found => cases found <;> rfl

end Lesson

/-- Requests to record positions in the same layout, each of a client of its own. -/
structure Lessons (ι : Type) where
  disk : Disk
  lesson : ι → Lesson := fun _ => .asked

/-! ## Which requests a file comes from -/

/-- What a request builds on. -/
inductive Basis (ι : Type) where
  /-- it has not loaded the layout yet -/
  | open
  /-- the layout that it loaded has the positions of these requests -/
  | found (requests : List ι)
  /-- it has saved the layout -/
  | done

/-- The next step of a request, for what it builds on: if it loads the layout, it finds what is in
the file; the file that it saves has what it found and its own position, whatever became of the file
in between. -/
def Basis.advance {ι : Type} (i : ι) (file : List ι) : Basis ι → List ι × Basis ι
  | .open => (file, .found file)
  | .found requests => (requests ++ [i], .done)
  | .done => (file, .done)

/-- **The requests that a file comes from**: those whose positions it holds, in the order in which
they were put into it. -/
structure Lineage (ι : Type) where
  file : List ι := []
  basis : ι → Basis ι := fun _ => .open

namespace Lineage

variable {ι : Type} [DecidableEq ι]

/-- One step of a request. -/
def step (l : Lineage ι) (i : ι) : Lineage ι :=
  let (file, next) := (l.basis i).advance i l.file
  { file, basis := Function.update l.basis i next }

def steps (l : Lineage ι) (schedule : List ι) : Lineage ι :=
  schedule.foldl step l

theorem basis_step_self (l : Lineage ι) (i : ι) :
    (l.step i).basis i = ((l.basis i).advance i l.file).2 :=
  Function.update_self ..

theorem basis_step_of_ne (l : Lineage ι) {i j : ι} (h : j ≠ i) :
    (l.step i).basis j = l.basis j :=
  Function.update_of_ne h ..

omit [DecidableEq ι] in
/-- The orders in which two requests can take their steps, by which of them saves last. -/
theorem schedules_of_two {first last : ι} {schedule : List ι}
    (h : schedule.Perm [first, first, last, last]) (hlast : schedule.getLast? = some last) :
    schedule = [first, first, last, last] ∨ schedule = [first, last, first, last] ∨
      schedule = [last, first, first, last] := by
  obtain ⟨rest, rfl⟩ := List.getLast?_eq_some_iff.1 hlast
  have hrest : rest.Perm [first, first, last] :=
    List.perm_append_right_iff [last] |>.1 h
  -- the other step of the request that saves last is anywhere among the three before
  obtain ⟨s, t, rfl⟩ := List.append_of_mem (hrest.mem_iff.2 (by simp : last ∈ _))
  have hfirst : (last :: (s ++ t)).Perm ([last] ++ [first, first]) :=
    (List.perm_middle.symm.trans hrest).trans (List.perm_append_comm : ([first, first] ++ _).Perm _)
  replace hfirst : (s ++ t).Perm (List.replicate 2 first) := hfirst.cons_inv
  rw [List.perm_replicate] at hfirst
  rcases List.append_eq_cons_iff.1 hfirst with ⟨rfl, rfl⟩ | ⟨s', rfl, hone⟩
  · exact .inr (.inr rfl)
  · rcases List.append_eq_cons_iff.1 hone.symm with ⟨rfl, rfl⟩ | ⟨s', rfl, hnone⟩
    · exact .inr (.inl rfl)
    · obtain ⟨rfl, rfl⟩ := List.append_eq_nil_iff.1 hnone.symm
      exact .inl rfl

/-- **The file of two requests** comes from both of them only if they did not overlap. -/
theorem file_of_two {first last : ι} {schedule : List ι} (hne : first ≠ last)
    (h : schedule.Perm [first, first, last, last]) (hlast : schedule.getLast? = some last) :
    (steps {} schedule).file =
      (if schedule = [first, first, last, last] then [first] else []) ++ [last] := by
  rcases schedules_of_two h hlast with rfl | rfl | rfl
  · simp [steps, step, Basis.advance, hne.symm]
  · simp [steps, step, Basis.advance, hne, hne.symm]
  · simp [steps, step, Basis.advance, hne, hne.symm]

end Lineage

/-! ## What the requests do -/

namespace Lessons

open Store

variable {ι : Type}

section Steps

variable (store : Store) (name : String) (asked : ι → Recording)

/-- One step of the request of a client. -/
def step [DecidableEq ι] (s : Lessons ι) (i : ι) : Lessons ι :=
  let (disk, next) := (s.lesson i).advance store name (asked i) s.disk
  { disk, lesson := Function.update s.lesson i next }

/-- The steps of requests in some order, each given by the client whose turn it is. -/
def steps [DecidableEq ι] (s : Lessons ι) (schedule : List ι) : Lessons ι :=
  schedule.foldl (step store name asked) s

/-- The layout that is loaded from a file which comes from these requests. -/
def holding (before : Option Layout) (requests : List ι) : Option Layout :=
  (requests.map fun i => (asked i).deed name).foldl
    (fun before deed => deed.changed store name before) before

/-- A request is where its lineage says. -/
inductive Matches (before : Option Layout) : Lesson → Basis ι → Prop
  | asked : Matches before .asked .open
  | loaded {layout : Layout} {requests : List ι}
      (hlayout : layout = (holding store name asked before requests).getD (.new name))
      (hfile : ∀ (r : Recording) (path : String),
        store.layoutPath (layout.learn r.side r.position r.p) = .ok path →
          path = store.layoutFile name ∧ isPlain name = true) :
      Matches before (.loaded layout) (.found requests)
  | answered {result : Except Failure (Option Json)} (hresult : result.isOk = true) :
      Matches before (.answered result) .done

/-- **The requests follow their lineage**: none of them has failed, and the layout that is loaded is
the one that the requests of the lineage have left. -/
structure Follows (before : Option Layout) (s : Lessons ι) (l : Lineage ι) : Prop where
  rooted : s.disk.Rooted
  file : (store.layoutOn s.disk name).toOption = holding store name asked before l.file
  each : ∀ i, Matches store name asked before (s.lesson i) (l.basis i)

end Steps

variable {store : Store} {name : String} {asked : ι → Recording} {before : Option Layout}
  {s : Lessons ι} {l : Lineage ι}

theorem holding_append (requests : List ι) (i : ι) :
    holding store name asked before (requests ++ [i]) =
      ((asked i).deed name).changed store name (holding store name asked before requests) := by
  rw [holding, List.map_append, List.foldl_append]
  rfl

/-! ### One step -/

/-- All that any requests have left comes back if what was there does, and what they record. -/
theorem durable_holding (hp : ∀ i, (asked i).p.reread? = some (asked i).p)
    (hbefore : ∀ layout, before = some layout → layout.positions.Durable) (requests : List ι) :
    ∀ layout, holding store name asked before requests = some layout →
      layout.positions.Durable := by
  induction requests using List.reverseRecOn with
  | nil => exact hbefore
  | append_singleton requests i ih =>
    rw [holding_append]
    exact durable_changed (fun _ => hp i) ih

/-- A request loads the layout that the file has. -/
theorem matches_of_load {d : Disk} {layout : Layout} {requests : List ι}
    (hfile : (store.layoutOn d name).toOption = holding store name asked before requests)
    (h : (Filing.run d (Service.layoutToLearn store name).run).2 = .ok layout) :
    Matches store name asked before (.loaded layout) (.found requests) := by
  refine .loaded ?_ ?_
  · rw [← hfile]
    exact layoutToLearn_ok h
  · intro r path hpath
    have hname : (layout.learn r.side r.position r.p).name = layout.name := rfl
    obtain ⟨hpath, hdocument⟩ := Service.path_of_layoutToLearn h hname rfl hpath
    refine ⟨hpath, ?_⟩
    rw [documentPath] at hdocument
    split at hdocument
    · assumption
    · cases hdocument

/-- A request saves the layout that it loaded, with its position. -/
theorem saved_of_loaded {d d' : Disk} {i : ι} {layout : Layout} {requests : List ι}
    {told : Option Json} (hrooted : d.Rooted)
    (hp : ∀ i, (asked i).p.reread? = some (asked i).p)
    (hbefore : ∀ layout, before = some layout → layout.positions.Durable)
    (hmatches : Matches store name asked before (.loaded layout) (.found requests))
    (h : Filing.run d
      (Service.saveLearned store layout (asked i).side (asked i).position (asked i).p).run =
        (d', .ok told)) :
    d'.Rooted ∧ (store.layoutOn d' name).toOption =
      holding store name asked before (requests ++ [i]) := by
  cases hmatches with
  | loaded hlayout hfile =>
    obtain ⟨d₁, path, hsave, hdone⟩ := ok_of_bind h
    cases hdone
    obtain ⟨hpath, hread⟩ := read_of_saveLayout hsave
    obtain ⟨rfl, hplain⟩ := hfile (asked i) path hpath
    have hchanged : some (store.filed name
        (layout.learn (asked i).side (asked i).position (asked i).p)) =
          holding store name asked before (requests ++ [i]) := by
      rw [holding_append, hlayout]
      exact (if_pos rfl).symm
    have hdurable := durable_holding hp hbefore (requests ++ [i]) _ hchanged.symm
    refine ⟨(saves_of_saveLayout hrooted hpath hsave).rooted, ?_⟩
    rw [layoutOn_written hplain hread hdurable, ← hchanged]
    rfl

/-- The next step of a request, if it does not fail, is the one that its lineage says. -/
theorem matches_advance {d : Disk} {i : ι} {file : List ι} {lesson : Lesson} {basis : Basis ι}
    (hrooted : d.Rooted) (hp : ∀ i, (asked i).p.reread? = some (asked i).p)
    (hbefore : ∀ layout, before = some layout → layout.positions.Durable)
    (hfile : (store.layoutOn d name).toOption = holding store name asked before file)
    (hmatches : Matches store name asked before lesson basis)
    (hok : (lesson.advance store name (asked i) d).2.failed = false) :
    (lesson.advance store name (asked i) d).1.Rooted ∧
      (store.layoutOn (lesson.advance store name (asked i) d).1 name).toOption =
        holding store name asked before (basis.advance i file).1 ∧
      Matches store name asked before (lesson.advance store name (asked i) d).2
        (basis.advance i file).2 := by
  cases hmatches with
  | asked =>
    have hdisk : (Filing.run d (Service.layoutToLearn store name).run).1 = d := by
      rw [Service.run_layoutToLearn]
    rw [Lesson.advance] at hok ⊢
    generalize hrun : Filing.run d (Service.layoutToLearn store name).run = r at hok hdisk
    obtain ⟨_, found⟩ := r
    cases hdisk
    cases found with
    | error f => cases hok
    | ok layout => exact ⟨hrooted, hfile, matches_of_load hfile (congrArg Prod.snd hrun)⟩
  | loaded hlayout hpath =>
    rw [Lesson.advance] at hok ⊢
    generalize hrun : Filing.run d (Service.saveLearned ..).run = r at hok
    obtain ⟨d', result⟩ := r
    cases result with
    | error f => cases hok
    | ok told =>
      obtain ⟨hrooted', hfile'⟩ :=
        saved_of_loaded hrooted hp hbefore (.loaded hlayout hpath) hrun
      exact ⟨hrooted', hfile', .answered rfl⟩
  | answered hresult => exact ⟨hrooted, hfile, .answered hresult⟩

variable [DecidableEq ι]

@[simp] theorem steps_cons (i : ι) (rest : List ι) :
    steps store name asked s (i :: rest) =
      steps store name asked (step store name asked s i) rest := rfl

theorem lesson_step_of_ne {i j : ι} (h : j ≠ i) :
    (step store name asked s i).lesson j = s.lesson j :=
  Function.update_of_ne h ..

theorem lesson_step_self (i : ι) :
    (step store name asked s i).lesson i =
      ((s.lesson i).advance store name (asked i) s.disk).2 :=
  Function.update_self ..

/-- **One step of a request that does not fail** is one step of its lineage. -/
theorem follows_step (h : Follows store name asked before s l)
    (hp : ∀ i, (asked i).p.reread? = some (asked i).p)
    (hbefore : ∀ layout, before = some layout → layout.positions.Durable) {i : ι}
    (hi : ((step store name asked s i).lesson i).failed = false) :
    Follows store name asked before (step store name asked s i) (l.step i) := by
  rw [lesson_step_self] at hi
  obtain ⟨hrooted, hfile, hself⟩ := matches_advance h.rooted hp hbefore h.file (h.each i) hi
  refine ⟨hrooted, hfile, fun j => ?_⟩
  by_cases hj : j = i
  · subst hj
    rwa [lesson_step_self, Lineage.basis_step_self]
  · rw [lesson_step_of_ne hj, Lineage.basis_step_of_ne l hj]
    exact h.each j

/-! ### Any order of steps -/

theorem failed_step {i : ι} (j : ι) (h : (s.lesson i).failed = true) :
    ((step store name asked s j).lesson i).failed = true := by
  by_cases hj : i = j
  · subst hj
    rw [lesson_step_self]
    cases hlesson : s.lesson i with
    | asked | loaded =>
      rw [hlesson] at h
      cases h
    | answered result =>
      rw [hlesson] at h
      exact h
  · rwa [lesson_step_of_ne hj]

/-- A request that has failed is over. -/
theorem failed_steps {i : ι} (schedule : List ι) (h : (s.lesson i).failed = true) :
    ((steps store name asked s schedule).lesson i).failed = true := by
  induction schedule generalizing s with
  | nil => exact h
  | cons j rest ih => exact ih (failed_step j h)

/-- **Requests follow their lineage**, in whatever order they take their steps. -/
theorem follows_steps {schedule : List ι} (h : Follows store name asked before s l)
    (hp : ∀ i, (asked i).p.reread? = some (asked i).p)
    (hbefore : ∀ layout, before = some layout → layout.positions.Durable)
    (hok : ∀ i ∈ schedule, ((steps store name asked s schedule).lesson i).failed = false) :
    Follows store name asked before (steps store name asked s schedule) (l.steps schedule) := by
  induction schedule generalizing s l with
  | nil => exact h
  | cons i rest ih =>
    have hi : ((step store name asked s i).lesson i).failed = false := by
      rw [← Bool.not_eq_true]
      intro hfailed
      have hend := hok i List.mem_cons_self
      rw [steps_cons, failed_steps rest hfailed] at hend
      cases hend
    exact ih (follows_step h hp hbefore hi) fun j hj => hok j (List.mem_cons_of_mem _ hj)

/-- **What is loaded when requests were carried out**, in whatever order they took their steps: the
layout that those of the lineage leave. -/
theorem layoutOn_steps {d : Disk} {schedule : List ι} (hrooted : d.Rooted)
    (hp : ∀ i, (asked i).p.reread? = some (asked i).p)
    (hstored : ∀ layout, (store.layoutOn d name).toOption = some layout →
      layout.positions.Durable)
    (hok : ∀ i ∈ schedule,
      ((steps store name asked { disk := d } schedule).lesson i).failed = false) :
    (store.layoutOn (steps store name asked { disk := d } schedule).disk name).toOption =
      holding store name asked (store.layoutOn d name).toOption
        (Lineage.steps {} schedule).file := by
  have hstart : Follows store name asked (store.layoutOn d name).toOption { disk := d } {} := by
    refine ⟨hrooted, ?_, fun _ => .asked⟩
    rw [holding, List.map_nil, List.foldl_nil]
  exact (follows_steps hstart hp hstored hok).file

/-! ### Two requests -/

omit [DecidableEq ι] in
/-- The point that the last request of a lineage leaves. -/
theorem pointIn?_holding_append (requests : List ι) (i : ι) (side : Side) (position : String) :
    pointIn? side position (holding store name asked before (requests ++ [i])) =
      if (side, position) = (asked i).place then some (asked i).p
      else pointIn? side position (holding store name asked before requests) := by
  rw [holding_append, pointIn?_changed, Recording.deed, Deed.point?, Recording.place]
  by_cases hplace : side = (asked i).side ∧ position = (asked i).position
  · rw [if_pos ⟨rfl, hplace⟩, if_pos (Prod.ext hplace.1 hplace.2)]
    rfl
  · rw [if_neg fun h => hplace h.2, if_neg fun h => hplace (Prod.mk.inj h)]
    rfl

/-- **Two positions that are recorded at the same time**, in one layout, by requests that both went
well and whose steps came in any order.  The one that is saved last is kept.  The other one is kept
if its request was over when that one began; else its place is as it was before either of them, as
if it had never been recorded.  So both are kept if and only if one came after the other, or the
point that is lost was there all along. -/
theorem recorded_together {d : Disk} {schedule : List ι} {first last : ι} (hrooted : d.Rooted)
    (hstored : ∀ layout, store.load d name = .ok layout → layout.positions.Durable)
    (hp : ∀ i, (asked i).p.reread? = some (asked i).p)
    (hplaces : (asked first).place ≠ (asked last).place)
    (hschedule : schedule.Perm [first, first, last, last])
    (hlast : schedule.getLast? = some last)
    (hok : ∀ i ∈ schedule,
      ((steps store name asked { disk := d } schedule).lesson i).succeeded = true) :
    let found (d : Disk) (place : Side × String) : Option Point :=
      pointIn? place.1 place.2 (store.load d name).toOption
    let d' := (steps store name asked { disk := d } schedule).disk
    (∀ place, found d' place =
      if place = (asked last).place then some (asked last).p
      else if place = (asked first).place ∧ schedule = [first, first, last, last] then
        some (asked first).p
      else found d place) ∧
    (found d' (asked first).place = some (asked first).p ∧
        found d' (asked last).place = some (asked last).p ↔
      schedule = [first, first, last, last] ∨
        found d (asked first).place = some (asked first).p) := by
  intro found d'
  have hne : first ≠ last := by
    rintro rfl
    exact hplaces rfl
  have hstored' : ∀ layout, (store.layoutOn d name).toOption = some layout →
      layout.positions.Durable := by
    intro layout hlayout
    apply hstored
    rw [load_eq]
    exact ok_of_toOption hlayout
  have hafter := layoutOn_steps hrooted hp hstored' fun i hi =>
    Lesson.not_failed_of_succeeded (hok i hi)
  rw [Lineage.file_of_two hne hschedule hlast] at hafter
  have hfound : ∀ place, found d' place =
      if place = (asked last).place then some (asked last).p
      else if place = (asked first).place ∧ schedule = [first, first, last, last] then
        some (asked first).p
      else found d place := by
    rintro ⟨side, position⟩
    simp only [found, load_eq]
    rw [hafter, pointIn?_holding_append]
    congr 1
    by_cases hturn : schedule = [first, first, last, last]
    · rw [if_pos hturn, ← List.nil_append [first], pointIn?_holding_append]
      simp only [hturn, and_true]
      rfl
    · rw [if_neg hturn, if_neg fun h => hturn h.2]
      rfl
  refine ⟨hfound, ?_⟩
  rw [hfound, hfound, if_neg hplaces, if_pos rfl]
  by_cases hturn : schedule = [first, first, last, last]
  · simp [hturn]
  · simp [hturn]

/-- Two clients record a position each. -/
def corners : Bool → Recording
  | false => ⟨.left, "near", ⟨1, 2⟩⟩
  | true => ⟨.left, "far", ⟨3, 4⟩⟩

theorem corners_reread (i : Bool) : (corners i).p.reread? = some (corners i).p := by
  cases i with
  | false => exact Point.reread?_eq_self.2 (by decide +kernel)
  | true => exact Point.reread?_eq_self.2 (by decide +kernel)

/-- One after the other, in a layout that is new. -/
theorem recorded_together_inTurn :
    let store : Store := ⟨"scripts", "layouts"⟩
    let schedule := [false, false, true, true]
    let s : Lessons Bool := steps store "pad" corners { disk := {} } schedule
    (∀ i ∈ schedule, (s.lesson i).succeeded = true) ∧
      pointIn? .left "near" (store.load s.disk "pad").toOption = some ⟨1, 2⟩ ∧
      pointIn? .left "far" (store.load s.disk "pad").toOption = some ⟨3, 4⟩ := by
  intro store schedule s
  have hok : ∀ i ∈ schedule, (s.lesson i).succeeded = true := by decide +kernel
  have hstored : ∀ layout, store.load {} "pad" = .ok layout → layout.positions.Durable := by
    have hnone : (store.load {} "pad").toOption.isSome = false := by decide +kernel
    intro layout hlayout
    rw [hlayout] at hnone
    cases hnone
  have hrooted : Disk.Rooted {} := Disk.rooted_of_entries nofun
  have hplaces : (corners false).place ≠ (corners true).place := by decide
  have htogether := recorded_together hrooted hstored corners_reread hplaces (.refl _) rfl hok
  exact ⟨hok, htogether.2.2 (.inl rfl)⟩

/-- **A position that is lost**: both requests load the layout before either of them saves it.  Both
are told that all went well, and what one of them has recorded is not there. -/
theorem recorded_over :
    let store : Store := ⟨"scripts", "layouts"⟩
    let schedule := [false, true, false, true]
    let s : Lessons Bool := steps store "pad" corners { disk := {} } schedule
    schedule.Perm [false, false, true, true] ∧
      (∀ i ∈ schedule, (s.lesson i).succeeded = true) ∧
      (corners false).place ≠ (corners true).place ∧
      (store.load s.disk "pad").isOk = true ∧
      pointIn? .left "near" (store.load s.disk "pad").toOption = none := by
  intro store schedule s
  exact ⟨by decide, by decide +kernel, by decide, by decide +kernel,
    Option.isNone_iff_eq_none.1 (by decide +kernel)⟩

end Lessons

end Stylus
