import Stylus.Proofs.Server.Learned
import Stylus.Proofs.Store.Saving

/-!
# Deeds

Positions are recorded and layouts are saved, one after the other and under any names, and some of
that may fail.  Each such `Deed` comes to one file being written, so a deed that went well changes
what is loaded under its own name and nothing else.

That a layout is read back as it was written is true of those coordinates only that are read back as
themselves from their digits, which is what `SidePositions.Durable` asks for; infinite ones never
are.

* `Deed`, `Deed.run` — a position is recorded, or a layout is saved;
* `Deed.changed` — what loading gives afterwards, from what it gave before;
* `Store.step_layoutOn`, `Store.layoutOn_afterwards` — **what one deed does**, and any sequence of
  them;
* `Store.deed_of_healthy` — a deed goes well if all is well with its layout.
-/

set_option autoImplicit false

namespace Stylus
namespace Store

variable {store : Store} {d d' : Disk} {name : String}

/-! ## What is loaded -/

/-- The name that a layout goes by: its own, or that of its file if it has none. -/
def goesBy (file own : String) : String :=
  if own.isEmpty then file else own

/-- A layout as it is loaded from the file of that name. -/
def filed (store : Store) (name : String) (layout : Layout) : Layout :=
  { layout with name := goesBy name layout.name, source := some (store.layoutFile name) }

/-- What is loaded depends on what is in the file. -/
theorem toOption_layoutOn (h : isPlain name = true) :
    (store.layoutOn d name).toOption = (d.read (store.layoutFile name)).toOption.bind fun content =>
      (decode .layout name Layout.reader content).toOption.map (store.filed name) := by
  rw [layoutOn, documentOn, documentPath_layout store h]
  dsimp only
  cases d.read (store.layoutFile name) with
  | ok content =>
    dsimp only [Except.toOption, Option.bind_some]
    cases decode .layout name Layout.reader content <;> rfl
  | error e => cases e <;> rfl

/-- A file that was not changed is loaded as before. -/
theorem layoutOn_unchanged (hrooted : d.Rooted) (hrooted' : d'.Rooted) (h : isPlain name = true)
    (hsame : d'.content? (Path.components (store.layoutFile name)) =
      d.content? (Path.components (store.layoutFile name))) :
    (store.layoutOn d' name).toOption = (store.layoutOn d name).toOption := by
  rw [toOption_layoutOn h, toOption_layoutOn h,
    hrooted.toOption_read (components_layoutFile store h),
    hrooted'.toOption_read (components_layoutFile store h), hsame]

/-- What is in the file of a layout whose coordinates come back as they are. -/
theorem decode_of_durable (name : String) {layout : Layout} (h : layout.positions.Durable) :
    decode .layout name Layout.reader (encode layout) =
      .ok { name := layout.name, positions := layout.positions } := by
  rcases decode_encode name layout with ⟨positions, hback, hdecode⟩ | ⟨hnone, -⟩
  · cases h.reread.symm.trans hback
    exact hdecode
  · cases h.reread.symm.trans hnone

/-- **A layout is loaded as it was written** if its coordinates come back as they are. -/
theorem layoutOn_written {layout : Layout} (h : isPlain name = true)
    (hread : d.read (store.layoutFile name) = .ok (encode layout))
    (hdurable : layout.positions.Durable) :
    store.layoutOn d name = .ok (store.filed name layout) := by
  rw [layoutOn, documentOn, documentPath_layout store h]
  simp only [hread, decode_of_durable name hdurable]
  rfl

end Store

/-! ## Deeds -/

/-- What is done to layouts. -/
inductive Deed where
  /-- a position is recorded in the layout of that name -/
  | learn (name : String) (side : Side) (position : String) (p : Point)
  /-- a layout is saved, in the file of that name -/
  | save (name : String) (layout : Layout)

namespace Deed

open Store

/-- The name of the layout that it is done to. -/
def name : Deed → String
  | learn name _ _ _ | save name _ => name

/-- Carries out a deed, and says whether that went well. -/
def run (store : Store) (d : Disk) : Deed → Disk × Bool
  | learn name side position p =>
    let (d, result) := Filing.run d (Service.learn store name side position p).run
    (d, result.isOk)
  | save _ layout =>
    let (d, result) := Filing.run d (store.saveLayout layout).run
    (d, result.isOk)

/-- The name is one of a layout, and a layout that is saved belongs into the file of that name: it
was loaded from there, or it is new and goes by that name. -/
def Fits (store : Store) (deed : Deed) : Prop :=
  isPlain deed.name = true ∧
    ∀ name layout, deed = save name layout → store.layoutPath layout = .ok (store.layoutFile name)

/-- The coordinates that are recorded or saved come back as they are. -/
def Durable : Deed → Prop
  | learn _ _ _ p => p.reread? = some p
  | save _ layout => layout.positions.Durable

/-- What loading the layout of that name gives after a deed that went well, from what it gave
before. -/
def changed (store : Store) (name : String) (before : Option Layout) : Deed → Option Layout
  | learn other side position p =>
    if other = name then
      some (store.filed name ((before.getD (.new name)).learn side position p))
    else before
  | save other layout => if other = name then some (store.filed name layout) else before

end Deed

namespace Store

variable {store : Store} {d d' : Disk}

/-- What a deed writes into its file. -/
def writes (store : Store) (d : Disk) : Deed → Layout
  | .learn name side position p =>
    ((store.layoutOn d name).toOption.getD (.new name)).learn side position p
  | .save _ layout => layout

/-- The layout that a position is recorded in. -/
theorem layoutToLearn_ok {name : String} {before : Layout}
    (h : (Filing.run d (Service.layoutToLearn store name).run).2 = .ok before) :
    before = (store.layoutOn d name).toOption.getD (.new name) := by
  rw [Service.run_layoutToLearn] at h
  split at h
  · rename_i hload
    cases h
    rw [hload]
    rfl
  · rename_i hload
    cases h
    rw [hload]
    rfl
  · cases h

/-- A layout that a position was recorded in belongs into the file of its name. -/
theorem layoutPath_writes {name position : String} {side : Side} {p : Point}
    (h : isPlain name = true) :
    store.layoutPath (store.writes d (.learn name side position p)) =
      .ok (store.layoutFile name) := by
  cases hload : store.layoutOn d name with
  | ok layout =>
    have hwrites : store.writes d (.learn name side position p) = layout.learn side position p := by
      rw [writes, hload]
      rfl
    rw [hwrites, layoutPath, Layout.learn, source_of_layoutOn hload]
  | error f =>
    have hwrites : store.writes d (.learn name side position p) =
        (Layout.new name).learn side position p := by
      rw [writes, hload]
      rfl
    rw [hwrites]
    exact documentPath_layout store h

/-- Recording a position writes one document at most. -/
theorem saves_of_learn {name position : String} {side : Side} {p : Point} (hrooted : d.Rooted)
    (h : isPlain name = true) :
    Saves d (Deed.run store d (.learn name side position p)).1 (store.layoutFile name)
      (encode (store.writes d (.learn name side position p)))
      (Deed.run store d (.learn name side position p)).2 := by
  rw [Deed.run, Service.learn, run_bind]
  cases hrun : Filing.run d (Service.layoutToLearn store name).run with
  | mk d₁ found =>
    have hd₁ : d₁ = d := by
      rw [Service.run_layoutToLearn] at hrun
      exact (Prod.ext_iff.1 hrun).1.symm
    subst hd₁
    cases found with
    | error f => exact .of_keeps hrooted .rfl _ _
    | ok before =>
      have hbefore := layoutToLearn_ok (congrArg Prod.snd hrun)
      have hwrites : before.learn side position p =
          store.writes d₁ (.learn name side position p) := by rw [hbefore, writes]
      dsimp only
      rw [Service.saveLearned, run_bind, hwrites]
      cases hsave : Filing.run d₁
          (store.saveLayout (store.writes d₁ (.learn name side position p))).run with
      | mk d₂ result =>
        have hsaves := saves_of_saveLayout hrooted (layoutPath_writes h) hsave
        cases result with
        | error f => exact hsaves
        | ok path => exact hsaves

/-- **A deed writes one document at most.** -/
theorem saves_of_deed {deed : Deed} (hrooted : d.Rooted) (hfits : deed.Fits store) :
    Saves d (deed.run store d).1 (store.layoutFile deed.name) (encode (store.writes d deed))
      (deed.run store d).2 := by
  cases deed with
  | learn name side position p => exact saves_of_learn hrooted hfits.1
  | save name layout => exact saves_of_saveLayout hrooted (hfits.2 name layout rfl) rfl

/-! ## One deed -/

/-- A deed changes what is loaded from its own file. -/
theorem changed_of_writes {deed : Deed} :
    some (store.filed deed.name (store.writes d deed)) =
      deed.changed store deed.name (store.layoutOn d deed.name).toOption := by
  cases deed with
  | learn name side position p => exact (if_pos rfl).symm
  | save name layout => exact (if_pos rfl).symm

theorem changed_of_ne {deed : Deed} {name : String} (h : deed.name ≠ name)
    (before : Option Layout) : deed.changed store name before = before := by
  cases deed with
  | learn other side position p => exact if_neg h
  | save other layout => exact if_neg h

/-- All that a deed leaves comes back if what was there does, and what it records. -/
theorem durable_changed {deed : Deed} {name : String} {before : Option Layout}
    (hdeed : deed.name = name → deed.Durable)
    (hbefore : ∀ layout, before = some layout → layout.positions.Durable) :
    ∀ layout, deed.changed store name before = some layout → layout.positions.Durable := by
  intro layout hlayout
  cases deed with
  | learn other side position p =>
    rw [Deed.changed] at hlayout
    split at hlayout
    · rename_i hother
      cases hlayout
      refine SidePositions.Durable.insert ?_ side position (hdeed hother)
      cases hb : before with
      | some layout => exact hbefore layout hb
      | none =>
        intro side name p hp
        cases side <;> cases hp
    · exact hbefore layout hlayout
  | save other saved =>
    rw [Deed.changed] at hlayout
    split at hlayout
    · rename_i hother
      cases hlayout
      exact hdeed hother
    · exact hbefore layout hlayout

/-- **What one deed does**: if it went well, it changes what is loaded from its own file, and
nothing else is changed at all. -/
theorem step_layoutOn {deed : Deed} {name : String} (hrooted : d.Rooted) (hfits : deed.Fits store)
    (hname : isPlain name = true)
    (hdeed : deed.name = name → deed.Durable)
    (hstored : ∀ layout, (store.layoutOn d name).toOption = some layout →
      layout.positions.Durable) :
    (store.layoutOn (deed.run store d).1 name).toOption =
      if (deed.run store d).2 then deed.changed store name (store.layoutOn d name).toOption
      else (store.layoutOn d name).toOption := by
  have hsaves := saves_of_deed hrooted hfits
  by_cases hsame : deed.name = name
  · subst hsame
    cases hwent : (deed.run store d).2 with
    | true =>
      have hdurable : (store.writes d deed).positions.Durable :=
        durable_changed hdeed hstored (store.filed deed.name _) changed_of_writes.symm
      rw [layoutOn_written hname (hsaves.written hwent) hdurable, if_pos rfl, ← changed_of_writes]
      rfl
    | false =>
      rw [if_neg Bool.false_ne_true]
      exact layoutOn_unchanged hrooted hsaves.rooted hname
        (hsaves.failed hwent _ (isDocument_layoutFile store hname))
  · rw [changed_of_ne hsame, ite_self]
    refine layoutOn_unchanged hrooted hsaves.rooted hname
      (hsaves.others _ (isDocument_layoutFile store hname) ?_)
    intro hfile
    exact hsame (components_layoutFile_inj hname hfits.1 hfile).symm

/-! ## Any sequence of deeds -/

/-- The disk after deeds. -/
def afterwards (store : Store) (d : Disk) : List Deed → Disk
  | [] => d
  | deed :: rest => store.afterwards (deed.run store d).1 rest

/-- The deeds that went well. -/
def done (store : Store) (d : Disk) : List Deed → List Deed
  | [] => []
  | deed :: rest =>
    let others := store.done (deed.run store d).1 rest
    if (deed.run store d).2 then deed :: others else others

/-- **What deeds do, one after the other**: those that went well change what is loaded, in order. -/
theorem layoutOn_afterwards {deeds : List Deed} {name : String} (hrooted : d.Rooted)
    (hname : isPlain name = true) (hfits : ∀ deed ∈ deeds, deed.Fits store)
    (hdeeds : ∀ deed ∈ deeds, deed.name = name → deed.Durable)
    (hstored : ∀ layout, (store.layoutOn d name).toOption = some layout →
      layout.positions.Durable) :
    (store.layoutOn (store.afterwards d deeds) name).toOption =
      (store.done d deeds).foldl (fun before deed => deed.changed store name before)
        (store.layoutOn d name).toOption := by
  induction deeds generalizing d with
  | nil => rfl
  | cons deed rest ih =>
    have hdeed := hdeeds deed List.mem_cons_self
    have hstep := step_layoutOn hrooted (hfits deed List.mem_cons_self) hname hdeed hstored
    have hstored' : ∀ layout, (store.layoutOn (deed.run store d).1 name).toOption = some layout →
        layout.positions.Durable := by
      rw [hstep]
      split
      · exact durable_changed hdeed hstored
      · exact hstored
    have hrest := ih (saves_of_deed hrooted (hfits deed List.mem_cons_self)).rooted
      (fun other h => hfits other (List.mem_cons_of_mem _ h))
      (fun other h => hdeeds other (List.mem_cons_of_mem _ h)) hstored'
    rw [afterwards, done, hrest, hstep]
    by_cases hwent : (deed.run store d).2 = true
    · rw [if_pos hwent, if_pos hwent, List.foldl_cons]
    · rw [if_neg hwent, if_neg hwent]

/-! ## Deeds that go well -/

/-- **All is well with the layout of that name**: nothing stands in its way, and what is in its
file, if there is one, is a layout whose coordinates come back. -/
structure Healthy (store : Store) (d : Disk) (name : String) : Prop where
  plain : isPlain name = true
  ready : store.Ready d name
  formed : ∀ content, d.content? (Path.components (store.layoutFile name)) = some content →
    ∃ layout, decode .layout name Layout.reader content = .ok layout ∧ layout.positions.Durable

/-- The layout is loaded, or there is none. -/
theorem Healthy.layoutOn {name : String} (h : store.Healthy d name) :
    (∃ layout, store.layoutOn d name = .ok layout ∧ layout.positions.Durable) ∨
      store.layoutOn d name = .error (.notFound .layout name) := by
  rw [Store.layoutOn, documentOn, documentPath_layout store h.plain]
  dsimp only
  rcases h.ready.read h.plain with ⟨content, hread, hcontent⟩ | hmissing
  · obtain ⟨layout, hdecode, hdurable⟩ := h.formed content hcontent
    rw [hread]
    dsimp only
    rw [hdecode]
    exact .inl ⟨_, rfl, hdurable⟩
  · rw [hmissing]
    exact .inr rfl

/-- A position is recorded if all is well with the layout. -/
theorem learn_of_healthy {name position : String} {side : Side} {p : Point} (hrooted : d.Rooted)
    (h : store.Healthy d name) :
    (Deed.run store d (.learn name side position p)).2 = true ∧
      store.Settled d (Deed.run store d (.learn name side position p)).1 := by
  obtain ⟨before, hbefore⟩ : ∃ before,
      Filing.run d (Service.layoutToLearn store name).run = (d, .ok before) := by
    rw [Service.run_layoutToLearn]
    rcases h.layoutOn with ⟨layout, hload, -⟩ | hnone
    · exact ⟨layout, by rw [hload]⟩
    · exact ⟨.new name, by rw [hnone]⟩
  have hwrites : before.learn side position p = store.writes d (.learn name side position p) := by
    rw [layoutToLearn_ok (congrArg Prod.snd hbefore), writes]
  obtain ⟨d', hsave, hsettled⟩ :=
    saveLayout_of_ready hrooted h.plain h.ready (layoutPath_writes h.plain)
  rw [Deed.run, Service.learn, run_bind, hbefore]
  dsimp only
  rw [Service.saveLearned, run_bind, hwrites, hsave]
  exact ⟨rfl, hsettled⟩

theorem Healthy.durable {name : String} (h : store.Healthy d name) :
    ∀ layout, (store.layoutOn d name).toOption = some layout → layout.positions.Durable := by
  intro layout hlayout
  rcases h.layoutOn with ⟨loaded, hload, hdurable⟩ | hnone
  · rw [hload] at hlayout
    cases hlayout
    exact hdurable
  · rw [hnone] at hlayout
    cases hlayout

/-- **A deed goes well if all is well with its layout**, and then all is as well as before with
every layout. -/
theorem deed_of_healthy {deed : Deed} (hrooted : d.Rooted) (hfits : deed.Fits store)
    (hdeed : deed.Durable) (h : store.Healthy d deed.name) :
    (deed.run store d).2 = true ∧
      ∀ name, store.Healthy d name → store.Healthy (deed.run store d).1 name := by
  have hsaves := saves_of_deed hrooted hfits
  have hrun : (deed.run store d).2 = true ∧ store.Settled d (deed.run store d).1 := by
    cases deed with
    | learn name side position p => exact learn_of_healthy hrooted h
    | save name layout =>
      obtain ⟨d', hsave, hsettled⟩ :=
        saveLayout_of_ready hrooted h.plain h.ready (hfits.2 name layout rfl)
      rw [Deed.run, hsave]
      exact ⟨rfl, hsettled⟩
  refine ⟨hrun.1, fun name hname => ⟨hname.plain,
    hname.ready.of_settled hname.plain hsaves.rooted hrun.2, ?_⟩⟩
  intro content hcontent
  by_cases hsame : deed.name = name
  · subst hsame
    have hdurable : (store.writes d deed).positions.Durable :=
      durable_changed (fun _ => hdeed) hname.durable (store.filed deed.name _)
        changed_of_writes.symm
    have hread := hsaves.rooted.toOption_read (components_layoutFile store h.plain)
    rw [hsaves.written hrun.1, if_pos h.ready.passable.1, hcontent] at hread
    obtain rfl : encode (store.writes d deed) = content := Option.some.inj hread
    exact ⟨_, decode_of_durable deed.name hdurable, hdurable⟩
  · apply hname.formed
    rw [← hcontent]
    refine (hsaves.others _ (isDocument_layoutFile store hname.plain) ?_).symm
    intro hfile
    exact hsame (components_layoutFile_inj hname.plain hfits.1 hfile).symm

/-- Where all is well with every layout, all deeds go well. -/
theorem done_of_healthy {deeds : List Deed} (hrooted : d.Rooted)
    (hfits : ∀ deed ∈ deeds, deed.Fits store) (hdeeds : ∀ deed ∈ deeds, deed.Durable)
    (h : ∀ deed ∈ deeds, store.Healthy d deed.name) : store.done d deeds = deeds := by
  induction deeds generalizing d with
  | nil => rfl
  | cons deed rest ih =>
    have hfit := hfits deed List.mem_cons_self
    obtain ⟨hwent, hhealthy⟩ := deed_of_healthy hrooted hfit (hdeeds deed List.mem_cons_self)
      (h deed List.mem_cons_self)
    have hrest := ih (saves_of_deed hrooted hfit).rooted
      (fun other hother => hfits other (List.mem_cons_of_mem _ hother))
      (fun other hother => hdeeds other (List.mem_cons_of_mem _ hother))
      (fun other hother => hhealthy other.name (h other (List.mem_cons_of_mem _ hother)))
    rw [done, hrest]
    exact if_pos hwent

end Store
end Stylus
