import Stylus.Proofs.Store.Deeds

/-!
# Layouts that are kept

What is in the layouts after any deeds?  A store is a map from names to layouts, and a layout is one
from sides and positions to points, and in both the last deed wins: for each side and each position
there is the point that was recorded last, and if none was, the one from before.

* `Deed.point?`, `Deed.ownName?` — what a deed says of a position, and of the name of a layout;
* `Store.pointIn?_changed`, `Store.name_changed` — what it changes of them;
* `Store.layouts_kept` — **the last deed wins, and nothing else changes**.
-/

set_option autoImplicit false

namespace Stylus

namespace Deed

/-- What is under a position of a layout since the deed, if it says something of it. -/
def point? (name : String) (side : Side) (position : String) : Deed → Option (Option Point)
  | learn other s location p =>
    if other = name ∧ side = s ∧ position = location then some (some p) else none
  | save other layout =>
    if other = name then some ((layout.positions.on side).get? position) else none

/-- The name that a layout says itself since the deed, if that changed. -/
def ownName? (name : String) : Deed → Option String
  | save other layout => if other = name then some layout.name else none
  | learn .. => none

end Deed

namespace Store

variable {store : Store} {d d' : Disk}

/-! ## Points -/

/-- What came last, if it says anything. -/
theorem getLast?_filterMap_cons {α β : Type} (f : α → Option β) (a : α) (rest : List α) (b : β) :
    ((a :: rest).filterMap f).getLast?.getD b =
      (rest.filterMap f).getLast?.getD ((f a).getD b) := by
  cases hf : f a with
  | none => rw [List.filterMap_cons_none hf, Option.getD_none]
  | some c => rw [List.filterMap_cons_some hf, List.getLast?_cons, Option.getD_some]; rfl

/-- The point under a position of a layout that was loaded, if it was. -/
def pointIn? (side : Side) (position : String) (loaded : Option Layout) : Option Point :=
  loaded.bind fun layout => (layout.positions.on side).get? position

theorem pointIn?_changed (deed : Deed) (name : String) (side : Side) (position : String)
    (before : Option Layout) :
    pointIn? side position (deed.changed store name before) =
      (deed.point? name side position).getD (pointIn? side position before) := by
  cases deed with
  | save other layout =>
    rw [Deed.changed, Deed.point?]
    by_cases h : other = name
    · rw [if_pos h, if_pos h]
      rfl
    · rw [if_neg h, if_neg h, Option.getD_none]
  | learn other s location p =>
    rw [Deed.changed, Deed.point?]
    by_cases h : other = name
    · rw [if_pos h]
      have hfound : pointIn? side position
          (some (store.filed name ((before.getD (.new name)).learn s location p))) =
            if side = s ∧ position = location then some p
            else ((before.getD (.new name)).positions.on side).get? position :=
        SidePositions.get?_on_insert ..
      have hbefore : ((before.getD (.new name)).positions.on side).get? position =
          pointIn? side position before := by
        cases before with
        | some layout => rfl
        | none => cases side <;> rfl
      rw [hfound, hbefore]
      by_cases hplace : side = s ∧ position = location
      · rw [if_pos hplace, if_pos ⟨h, hplace⟩]
        rfl
      · rw [if_neg hplace, if_neg fun hall => hplace hall.2, Option.getD_none]
    · rw [if_neg h, if_neg fun hall => h hall.1, Option.getD_none]

/-! ## Names -/

theorem goesBy_goesBy (file own : String) : goesBy file (goesBy file own) = goesBy file own := by
  rw [goesBy, goesBy]
  by_cases h : own.isEmpty
  · rw [if_pos h]
    exact ite_self _
  · rw [if_neg h, if_neg h]

/-- The name that the document in the file of that name says; none if there is no such document. -/
def ownName (store : Store) (d : Disk) (name : String) : String :=
  ((documentOn d store.layouts .layout name Layout.reader).toOption.map Layout.name).getD ""

/-- A layout that is loaded, or that would be begun, goes by the name that its document says. -/
theorem name_layoutOn (store : Store) (d : Disk) (name : String) :
    ((store.layoutOn d name).toOption.getD (.new name)).name =
      goesBy name (store.ownName d name) := by
  rw [layoutOn, ownName]
  cases documentOn d store.layouts .layout name Layout.reader <;> rfl

theorem name_changed {deed : Deed} {name own : String} {before : Option Layout}
    (h : (before.getD (.new name)).name = goesBy name own) :
    ((deed.changed store name before).getD (.new name)).name =
      goesBy name ((deed.ownName? name).getD own) := by
  cases deed with
  | learn other side position p =>
    rw [Deed.changed, Deed.ownName?, Option.getD_none]
    by_cases hother : other = name
    · rw [if_pos hother]
      show goesBy name (before.getD (.new name)).name = _
      rw [h, goesBy_goesBy]
    · rwa [if_neg hother]
  | save other layout =>
    rw [Deed.changed, Deed.ownName?]
    by_cases hother : other = name
    · rw [if_pos hother, if_pos hother]
      rfl
    · rwa [if_neg hother, if_neg hother, Option.getD_none]

theorem name_foldl_changed {deeds : List Deed} {name own : String} {before : Option Layout}
    (h : (before.getD (.new name)).name = goesBy name own) :
    ((deeds.foldl (fun before deed => deed.changed store name before) before).getD
        (.new name)).name =
      goesBy name ((deeds.filterMap (·.ownName? name)).getLast?.getD own) := by
  induction deeds generalizing before own with
  | nil => exact h
  | cons deed rest ih => rw [List.foldl_cons, getLast?_filterMap_cons, ih (name_changed h)]

theorem pointIn?_foldl_changed (deeds : List Deed) (name : String) (side : Side)
    (position : String) (before : Option Layout) :
    pointIn? side position
        (deeds.foldl (fun before deed => deed.changed store name before) before) =
      (deeds.filterMap (·.point? name side position)).getLast?.getD
        (pointIn? side position before) := by
  induction deeds generalizing before with
  | nil => rfl
  | cons deed rest ih => rw [List.foldl_cons, getLast?_filterMap_cons, ih, pointIn?_changed]

theorem isSome_foldl_changed (deeds : List Deed) (name : String) (before : Option Layout) :
    (deeds.foldl (fun before deed => deed.changed store name before) before).isSome =
      (before.isSome || deeds.any (·.name = name)) := by
  induction deeds generalizing before with
  | nil => exact (Bool.or_false _).symm
  | cons deed rest ih =>
    have hstep : (deed.changed store name before).isSome =
        (before.isSome || decide (deed.name = name)) := by
      cases deed with
      | learn other side position p =>
        rw [Deed.changed, Deed.name]
        by_cases h : other = name <;> simp [h]
      | save other layout =>
        rw [Deed.changed, Deed.name]
        by_cases h : other = name <;> simp [h]
    rw [List.foldl_cons, ih, hstep, List.any_cons, Bool.or_assoc]

theorem foldl_changed_of_ne {deeds : List Deed} {name : String}
    (h : ∀ deed ∈ deeds, deed.name ≠ name) (before : Option Layout) :
    deeds.foldl (fun before deed => deed.changed store name before) before = before := by
  induction deeds with
  | nil => rfl
  | cons deed rest ih =>
    rw [List.foldl_cons, changed_of_ne (h deed List.mem_cons_self)]
    exact ih fun other hother => h other (List.mem_cons_of_mem _ hother)

/-! ## The last deed wins -/

/-- What comes of loading a layout. -/
def load (store : Store) (d : Disk) (name : String) : Except Failure Layout :=
  (Filing.run d (store.loadLayout name).run).2

theorem load_eq (store : Store) (d : Disk) (name : String) :
    store.load d name = store.layoutOn d name := by
  rw [load, run_loadLayout]

/-- **What is kept of a layout**: `d` is the disk before some deeds and `d'` that afterwards, and
these are the deeds that went well. -/
structure Keeps (store : Store) (name : String) (d d' : Disk) (done : List Deed) : Prop where
  /-- the last deed wins: for each side and position there is what it left there, and if no deed was
  about it, what was there before -/
  points : ∀ side position, pointIn? side position (store.load d' name).toOption =
    (done.filterMap (·.point? name side position)).getLast?.getD
      (pointIn? side position (store.load d name).toOption)
  /-- deeds about other layouts change nothing -/
  others : (∀ deed ∈ done, deed.name ≠ name) →
    (store.load d' name).toOption = (store.load d name).toOption
  /-- a layout that could be loaded still can, and no other than those of the deeds can besides -/
  there : (store.load d' name).toOption.isSome =
    ((store.load d name).toOption.isSome || done.any (·.name = name))
  /-- it remembers its file, and goes by the name that it was saved with last, or by the one that
  its document said before, and by that of its file if this is none -/
  called : ∀ layout, store.load d' name = .ok layout →
    layout.source = some (store.layoutFile name) ∧
      layout.name = goesBy name
        ((done.filterMap (·.ownName? name)).getLast?.getD (store.ownName d name))
  /-- a layout with a name that is saved then is loaded as it is, and its source is where it was
  saved -/
  saved : ∀ layout path d'', store.layoutPath layout = .ok (store.layoutFile name) →
    layout.positions.Durable → layout.name ≠ "" →
    Filing.run d' (store.saveLayout layout).run = (d'', .ok path) →
      path = store.layoutFile name ∧ store.load d'' name = .ok { layout with source := some path }

/-- **The last deed wins, and nothing else changes.**  Positions are recorded and layouts are saved
on a disk, and the coordinates of a layout come back from their digits, those from before and those
that are recorded: then loading it gives what the deeds that went well have left.  And all of them
go well if all is well with the layouts that they are about. -/
theorem layouts_kept {deeds : List Deed} {name : String} (hrooted : d.Rooted)
    (hname : isPlain name = true) (hfits : ∀ deed ∈ deeds, deed.Fits store)
    (hdeeds : ∀ deed ∈ deeds, deed.name = name → deed.Durable)
    (hstored : ∀ layout, store.load d name = .ok layout → layout.positions.Durable) :
    store.Keeps name d (store.afterwards d deeds) (store.done d deeds) ∧
      ((∀ deed ∈ deeds, deed.Durable ∧ store.Healthy d deed.name) →
        store.done d deeds = deeds) := by
  have hstored' : ∀ layout, (store.layoutOn d name).toOption = some layout →
      layout.positions.Durable := by
    intro layout hlayout
    apply hstored
    rw [load_eq]
    cases hload : store.layoutOn d name with
    | ok loaded =>
      rw [hload] at hlayout
      cases hlayout
      rfl
    | error f =>
      rw [hload] at hlayout
      cases hlayout
  have hafter := layoutOn_afterwards hrooted hname hfits hdeeds hstored'
  refine ⟨⟨?_, ?_, ?_, ?_, ?_⟩, fun hall => done_of_healthy hrooted hfits
    (fun deed hdeed => (hall deed hdeed).1) (fun deed hdeed => (hall deed hdeed).2)⟩
  · intro side position
    rw [load_eq, load_eq, hafter]
    exact pointIn?_foldl_changed ..
  · intro hothers
    rw [load_eq, load_eq, hafter]
    exact foldl_changed_of_ne hothers _
  · rw [load_eq, load_eq, hafter]
    exact isSome_foldl_changed ..
  · intro layout hload
    rw [load_eq] at hload
    refine ⟨source_of_layoutOn hload, ?_⟩
    rw [hload] at hafter
    show ((Except.ok layout : Except Failure Layout).toOption.getD (.new name)).name = _
    rw [hafter]
    exact name_foldl_changed (store.name_layoutOn d name)
  · intro layout path d'' hpath hdurable hnamed hsave
    obtain ⟨hfile, hread⟩ := read_of_saveLayout hsave
    cases hpath.symm.trans hfile
    refine ⟨rfl, ?_⟩
    rw [load_eq, layoutOn_written hname hread hdurable, filed, goesBy,
      if_neg (by rwa [String.isEmpty_iff])]

/-- A layout that says another name than its file. -/
def desk : Layout :=
  { name := "desk", positions := ({} : SidePositions).insert .left "p" ⟨1, 2⟩ }

/-- A disk with that layout. -/
def withDesk : Disk :=
  { entries := [(["layouts"], .directory), (["layouts", "a.json"], .file (encode desk))] }

/-- Two positions are recorded in it, one of them anew, and a new layout is saved beside it. -/
def rearranging : List Deed :=
  [.learn "a" .left "p" ⟨3, 4⟩, .save "b" (.new "b"), .learn "a" .right "q" ⟨5, 6⟩]

theorem durable_empty : ({} : SidePositions).Durable := by
  intro side name p hp
  cases side <;> cases hp

/-- All of this goes well, and the layout is still called as before. -/
theorem layouts_kept_desk :
    let store : Store := ⟨"scripts", "layouts"⟩
    withDesk.Rooted ∧ isPlain "a" = true ∧ (∀ deed ∈ rearranging, deed.Fits store) ∧
      (∀ deed ∈ rearranging, deed.name = "a" → deed.Durable) ∧
      (∀ layout, store.load withDesk "a" = .ok layout → layout.positions.Durable) ∧
      store.Keeps "a" withDesk (store.afterwards withDesk rearranging)
        (store.done withDesk rearranging) ∧
      store.done withDesk rearranging = rearranging := by
  intro store
  have hrooted : withDesk.Rooted := by
    apply Disk.rooted_of_entries
    intro e he
    simp only [withDesk, List.mem_cons, List.not_mem_nil, or_false] at he
    rcases he with rfl | rfl
    · rfl
    · rfl
  have hdesk : desk.positions.Durable :=
    durable_empty.insert .left "p" (Point.reread?_eq_self.2 (by decide +kernel))
  have hplain : isPlain "a" = true := by decide +kernel
  have hpath : Path.components (store.layoutFile "a") = ["layouts"] ++ ["a.json"] := by
    decide +kernel
  have hfile : withDesk.content? (Path.components (store.layoutFile "a")) = some (encode desk) := by
    rw [hpath]
    rfl
  have hread : withDesk.read (store.layoutFile "a") = .ok (encode desk) := by
    apply ok_of_toOption
    rw [hrooted.toOption_read hpath, if_pos (by decide +kernel), hfile]
  have hfits : ∀ deed ∈ rearranging, deed.Fits store := by
    simp only [rearranging, List.forall_mem_cons]
    exact ⟨⟨rfl, nofun⟩, ⟨rfl, by rintro _ _ ⟨⟩; rfl⟩, ⟨rfl, nofun⟩, nofun⟩
  have hdurable : ∀ deed ∈ rearranging, deed.Durable := by
    simp only [rearranging, List.forall_mem_cons]
    exact ⟨Point.reread?_eq_self.2 (by decide +kernel), durable_empty,
      Point.reread?_eq_self.2 (by decide +kernel), nofun⟩
  have hstored : ∀ layout, store.load withDesk "a" = .ok layout → layout.positions.Durable := by
    intro layout hload
    rw [load_eq, layoutOn_written hplain hread hdesk] at hload
    cases hload
    exact hdesk
  have hready : ∀ name, name = "a" ∨ name = "b" → store.Ready withDesk name := by
    rintro name (rfl | rfl)
    · exact ⟨ok_of_toOption (by decide +kernel), by decide +kernel, by decide +kernel,
        by decide +kernel⟩
    · exact ⟨ok_of_toOption (by decide +kernel), by decide +kernel, by decide +kernel,
        by decide +kernel⟩
  have hdesk' : store.Healthy withDesk "a" := by
    refine ⟨hplain, hready "a" (.inl rfl), ?_⟩
    intro content hcontent
    cases hfile.symm.trans hcontent
    exact ⟨_, decode_of_durable "a" hdesk, hdesk⟩
  have hnew : store.Healthy withDesk "b" := by
    refine ⟨by decide +kernel, hready "b" (.inr rfl), ?_⟩
    intro content hcontent
    have hnone : withDesk.content? (Path.components (store.layoutFile "b")) = none := by
      decide +kernel
    cases hnone.symm.trans hcontent
  have hhealthy : ∀ deed ∈ rearranging, store.Healthy withDesk deed.name := by
    simp only [rearranging, List.forall_mem_cons]
    exact ⟨hdesk', hnew, hdesk', nofun⟩
  have hkept := layouts_kept hrooted hplain hfits (fun deed hdeed _ => hdurable deed hdeed) hstored
  exact ⟨hrooted, hplain, hfits, fun deed hdeed _ => hdurable deed hdeed, hstored, hkept.1,
    hkept.2 fun deed hdeed => ⟨hdurable deed hdeed, hhealthy deed hdeed⟩⟩

end Store
end Stylus
