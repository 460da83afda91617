import Stylus.Proofs.Bench.Moves
import Stylus.Proofs.Path
import Stylus.Proofs.Store.Disk
import Stylus.Server.Service

/-!
# Files when things go wrong

Every act on files can fail: for what there is on the disk, or by a mishap.  An act that fails by a
mishap can leave a part of its work behind, some of the directories or some of the bytes, or nothing
at all.  What is then left of the documents?  They are only ever touched by the last act of saving,
which renames what was written beside them; everything before it makes directories and writes
drafts, and the name of a draft is not that of a document.

* `Filing.MayEnd` — how work can end when any of its acts may fail;
* `Store.KeepsDocuments` — all documents are as they were;
* `Store.keepsDocuments_fail` — an act that fails keeps them, unless it was to write one;
* `Store.keepsDocuments_of_saveLayout`, `Service.keepsDocuments_of_learn` — work that fails keeps
  them;
* `Store.documents_undamaged` — **failed work damages no document**, whichever of its acts fails.
-/

set_option autoImplicit false

namespace Stylus

theorem error_of_isOk {ε α : Type} {r : Except ε α} (h : r.isOk = false) : ∃ e, r = .error e := by
  cases r with
  | ok a => cases h
  | error e => exact ⟨e, rfl⟩

theorem ok_of_toOption {ε α : Type} {r : Except ε α} {a : α} (h : r.toOption = some a) :
    r = .ok a := by
  cases r with
  | ok b =>
    cases h
    rfl
  | error e => cases h

/-- There is nothing of that name. -/
def Failure.isNotFound : Failure → Bool
  | .notFound _ _ => true
  | _ => false

/-! ## How work can end -/

namespace Filing

variable {α β : Type} {allowed : Disk.Mishap → Prop} {d d' : Disk}

/-- **How work can end**: each act does what it does on the disk, or fails by one of the mishaps
that are allowed for. -/
inductive MayEnd (allowed : Disk.Mishap → Prop) {α : Type} : Disk → Filing α → Disk → α → Prop where
  | done (d : Disk) (a : α) : MayEnd allowed d (.done a) d a
  | performed {d d' : Disk} {a : FileAct} {next : Except FileError a.Result → Filing α} {r : α}
      (rest : MayEnd allowed (d.perform a).1 (next (d.perform a).2) d' r) :
      MayEnd allowed d (.act a next) d' r
  | failed {d d' : Disk} {a : FileAct} {next : Except FileError a.Result → Filing α} {r : α}
      (m : Disk.Mishap) (allows : allowed m)
      (rest : MayEnd allowed (d.fail m a) (next (.error m.error)) d' r) :
      MayEnd allowed d (.act a next) d' r

theorem mayEnd_runWith {mishaps : List (Option Disk.Mishap)}
    (h : ∀ m, some m ∈ mishaps → allowed m) (d : Disk) (work : Filing α) :
    MayEnd allowed d work (runWith mishaps d work).1 (runWith mishaps d work).2 := by
  induction work generalizing mishaps d with
  | done a => exact .done d a
  | act a next ih =>
    cases mishaps with
    | nil => exact .performed (ih _ (by simp) _)
    | cons mishap rest =>
      have hrest : ∀ m, some m ∈ rest → allowed m := fun m hm => h m (List.mem_cons_of_mem _ hm)
      cases mishap with
      | none => exact .performed (ih _ hrest _)
      | some m => exact .failed m (h m List.mem_cons_self) (ih _ hrest _)

/-- Work in two parts ends when the second part does. -/
theorem MayEnd.of_bind {work : Filing α} {f : α → Filing β} {b : β}
    (h : MayEnd allowed d (work >>= f) d' b) :
    ∃ d₁ a, MayEnd allowed d work d₁ a ∧ MayEnd allowed d₁ (f a) d' b := by
  replace h : MayEnd allowed d (work.bind f) d' b := h
  induction work generalizing d with
  | done a => exact ⟨d, a, .done d a, h⟩
  | act a next ih =>
    cases h with
    | performed rest =>
      obtain ⟨d₁, r, hwork, hrest⟩ := ih _ rest
      exact ⟨d₁, r, .performed hwork, hrest⟩
    | failed m allows rest =>
      obtain ⟨d₁, r, hwork, hrest⟩ := ih _ rest
      exact ⟨d₁, r, .failed m allows hwork, hrest⟩

theorem MayEnd.eq_of_done {a r : α} (h : MayEnd allowed d (.done a) d' r) : d' = d ∧ r = a := by
  cases h
  exact ⟨rfl, rfl⟩

/-- A single act is carried out, or a mishap keeps it from that. -/
theorem MayEnd.of_perform {a : FileAct} {r : Except FileError a.Result}
    (h : MayEnd allowed d (perform a) d' r) :
    d.perform a = (d', r) ∨ ∃ m, allowed m ∧ d' = d.fail m a ∧ r = .error m.error := by
  cases h with
  | performed rest =>
    obtain ⟨rfl, rfl⟩ := rest.eq_of_done
    exact .inl rfl
  | failed m allows rest =>
    obtain ⟨rfl, rfl⟩ := rest.eq_of_done
    exact .inr ⟨m, allows, rfl, rfl⟩

end Filing

namespace Store

open Filing

variable {α β : Type} {allowed : Disk.Mishap → Prop} {d d' : Disk}

/-- Work that can fail, in two parts: the first part fails, or what it yields goes into the
second. -/
theorem mayEnd_bind {work : Storing α} {f : α → Storing β} {result : Except Failure β}
    (h : MayEnd allowed d (work >>= f).run d' result) :
    (∃ e, MayEnd allowed d work.run d' (.error e) ∧ result = .error e) ∨
      ∃ d₁ a, MayEnd allowed d work.run d₁ (.ok a) ∧ MayEnd allowed d₁ (f a).run d' result := by
  replace h : MayEnd allowed d (work.run >>= ExceptT.bindCont f) d' result := h
  obtain ⟨d₁, r, hwork, hrest⟩ := h.of_bind
  cases r with
  | error e =>
    obtain ⟨rfl, rfl⟩ := hrest.eq_of_done
    exact .inl ⟨e, hwork, rfl⟩
  | ok a => exact .inr ⟨d₁, a, hwork, hrest⟩

theorem mayEnd_perform {a : FileAct} {result : Except Failure a.Result}
    (h : MayEnd allowed d (perform a).run d' result) :
    (d' = (d.perform a).1 ∧ result = (d.perform a).2.mapError (.io ·.message)) ∨
      ∃ m, allowed m ∧ d' = d.fail m a ∧ result = .error (.io m.error.message) := by
  replace h : MayEnd allowed d (Filing.perform a >>= _) d' result := h
  obtain ⟨d₁, r, hact, hrest⟩ := h.of_bind
  rcases hact.of_perform with hdone | ⟨m, allows, rfl, rfl⟩
  · rw [hdone]
    cases r <;> exact .inl hrest.eq_of_done
  · obtain ⟨rfl, rfl⟩ := hrest.eq_of_done
    exact .inr ⟨m, allows, rfl, rfl⟩

end Store

/-! ## What changes files -/

namespace Disk

/-- The content of the file at a path, if there is a file. -/
def content? (d : Disk) (path : List String) : Option (List UInt8) :=
  match d.get? path with
  | some (.file content) => some content
  | _ => none

theorem content?_put_of_ne {d : Disk} {path q : List String} (h : q ≠ path) (entry : DiskEntry) :
    (d.put path entry).content? q = d.content? q := by
  rw [content?, get?_put_of_ne h]
  rfl

/-- A directory that is made where nothing was is no file. -/
theorem content?_put_directory {d : Disk} {path : List String} (h : d.get? path = none)
    (q : List String) : (d.put path .directory).content? q = d.content? q := by
  by_cases hq : q = path
  · subst hq
    have hne : q ≠ [] := by
      rintro rfl
      cases h
    simp [content?, get?_put hne, h]
  · exact content?_put_of_ne hq _

theorem content?_makeFrom (d : Disk) (before names q : List String) :
    (d.makeFrom before names).1.content? q = d.content? q := by
  induction names generalizing d before with
  | nil => rfl
  | cons name rest ih =>
    rw [makeFrom]
    split
    · rfl
    · split
      · exact ih d _
      · rfl
      · rename_i hnone
        exact (ih _ _).trans (content?_put_directory hnone q)

/-- **Making directories changes no file.** -/
theorem content?_makeDirectory (d : Disk) (path : String) (q : List String) :
    (d.makeDirectory path).1.content? q = d.content? q := by
  rw [makeDirectory]
  split
  · rfl
  · exact content?_makeFrom d [] _ q

theorem content?_makeSome (d : Disk) (path : String) (n : Nat) (q : List String) :
    (d.makeSome path n).content? q = d.content? q := by
  rw [makeSome]
  split
  · rfl
  · exact content?_makeFrom d [] _ q

/-- **Writing changes no other file.** -/
theorem content?_write {d : Disk} {path : String} {q : List String} (h : q ≠ Path.components path)
    (content : List UInt8) : (d.write path content).1.content? q = d.content? q := by
  rcases d.write_cases path content with ⟨e, hwrite⟩ | ⟨_, _, hwrite⟩
  · rw [hwrite]
  · rw [hwrite]
    exact content?_put_of_ne h _

/-- An act that fails changes no file, except one that it was to write. -/
theorem content?_fail {d : Disk} {a : FileAct} {q : List String} (m : Mishap)
    (h : ∀ path content, a = .write path content → q ≠ Path.components path) :
    (d.fail m a).content? q = d.content? q := by
  cases a with
  | makeDirectory path => exact d.content?_makeSome path _ q
  | write path content =>
    rw [fail]
    cases m.written with
    | none => rfl
    | some n => exact content?_write (h path content rfl) _
  | read | list | rename => rfl

theorem rename_of_error {d d' : Disk} {source target : String} {e : FileError}
    (h : d.rename source target = (d', .error e)) : d' = d := by
  rcases d.rename_cases source target with ⟨e', hrename⟩ | ⟨_, _, _, _, hrename⟩
  · rw [hrename] at h
    exact (Prod.ext_iff.1 h).1.symm
  · rw [hrename] at h
    cases (Prod.ext_iff.1 h).2

end Disk

/-! ## Documents and drafts -/

namespace Store

open Filing

variable {store : Store} {allowed : Disk.Mishap → Prop} {d d' : Disk}

/-- A path that goes by the name of a document. -/
def IsDocument (path : List String) : Prop :=
  ∃ name, path.getLast? = some name ∧ ("." ++ extension).toList <:+ name.toList

/-- **All documents are as they were**: none is changed, none is gone, and none is new. -/
def KeepsDocuments (d d' : Disk) : Prop :=
  ∀ path, IsDocument path → d'.content? path = d.content? path

theorem KeepsDocuments.rfl : KeepsDocuments d d := fun _ _ => .refl _

theorem KeepsDocuments.trans {d'' : Disk} (h : KeepsDocuments d d') (h' : KeepsDocuments d' d'') :
    KeepsDocuments d d'' :=
  fun path hpath => (h' path hpath).trans (h path hpath)

theorem isName_draft : Path.IsName "json.tmp" := ⟨by decide, by decide⟩

/-- **No draft goes by the name of a document.** -/
theorem not_isDocument_draft (path : String) : ¬IsDocument (Path.components (draftPath path)) := by
  rintro ⟨last, hlast, hsuffix⟩
  cases hname : (Path.components path).getLast? with
  | none =>
    rw [draftPath, Path.withExtension, hname] at hlast
    cases hname.symm.trans hlast
  | some name =>
    rw [draftPath, Path.components_withExtension hname isName_draft, List.getLast?_concat] at hlast
    obtain rfl := Option.some.inj hlast
    -- both would be the last five characters of the name
    have hdraft : "n.tmp".toList <:+ (Path.stem name ++ "." ++ "json.tmp").toList :=
      ⟨(Path.stem name).toList ++ ".jso".toList, by simp⟩
    have hsame := List.suffix_of_suffix_length_le hsuffix hdraft (by decide)
    exact absurd (hsame.eq_of_length (by decide)) (by decide)

theorem keepsDocuments_makeDirectory (d : Disk) (path : String) :
    KeepsDocuments d (d.makeDirectory path).1 :=
  fun q _ => d.content?_makeDirectory path q

theorem keepsDocuments_draft (d : Disk) (path : String) (content : List UInt8) :
    KeepsDocuments d (d.write (draftPath path) content).1 := by
  intro q hq
  refine Disk.content?_write ?_ content
  rintro rfl
  exact not_isDocument_draft path hq

/-- **An act that fails keeps all documents**, unless it was to write one. -/
theorem keepsDocuments_fail (d : Disk) (m : Disk.Mishap) {a : FileAct}
    (h : ∀ path content, a = .write path content → ¬IsDocument (Path.components path)) :
    KeepsDocuments d (d.fail m a) := by
  refine fun q hq => Disk.content?_fail m fun path content ha => ?_
  rintro rfl
  exact h path content ha hq

/-! ## Saving -/

/-- **A layout that could not be saved** has not touched any document. -/
theorem keepsDocuments_of_saveLayout {layout : Layout} {f : Failure}
    (h : MayEnd allowed d (store.saveLayout layout).run d' (.error f)) : KeepsDocuments d d' := by
  rw [saveLayout] at h
  cases hpath : store.layoutPath layout with
  | error e =>
    rw [hpath] at h
    obtain ⟨rfl, -⟩ := h.eq_of_done
    exact .rfl
  | ok path =>
    rw [hpath] at h
    have made {d₁ : Disk} {result : Except Failure Unit}
        (h : MayEnd allowed d (perform (.makeDirectory (Path.parent path))).run d₁ result) :
        KeepsDocuments d d₁ := by
      rcases mayEnd_perform h with ⟨rfl, -⟩ | ⟨m, -, rfl, -⟩
      · exact keepsDocuments_makeDirectory d _
      · exact keepsDocuments_fail d m fun _ _ ha => by cases ha
    have written {d₁ d₂ : Disk} {result : Except Failure Unit}
        (h : MayEnd allowed d₁ (perform (.write (draftPath path) (encode layout))).run d₂ result) :
        KeepsDocuments d₁ d₂ := by
      rcases mayEnd_perform h with ⟨rfl, -⟩ | ⟨m, -, rfl, -⟩
      · exact keepsDocuments_draft d₁ path _
      · refine keepsDocuments_fail d₁ m fun draft _ ha => ?_
        cases ha
        exact not_isDocument_draft path
    rcases mayEnd_bind h with ⟨e, hmake, -⟩ | ⟨d₁, _, hmake, h⟩
    · exact made hmake
    rcases mayEnd_bind h with ⟨e, hwrite, -⟩ | ⟨d₂, _, hwrite, h⟩
    · exact (made hmake).trans (written hwrite)
    rcases mayEnd_bind h with ⟨e, hrename, -⟩ | ⟨d₃, _, _, h⟩
    · -- a rename that fails has done nothing
      suffices hsame : d' = d₂ by
        rw [hsame]
        exact (made hmake).trans (written hwrite)
      rcases mayEnd_perform hrename with ⟨hperformed, hresult⟩ | ⟨m, -, hfailed, -⟩
      · cases hact : d₂.rename (draftPath path) path with
        | mk d₄ result =>
          rw [Disk.perform, hact] at hperformed hresult
          cases result with
          | ok => cases hresult
          | error e => exact hperformed.trans (Disk.rename_of_error hact)
      · exact hfailed
    · cases h.eq_of_done.2

/-! ## Loading -/

/-- Loading changes nothing.  It yields what is on the disk, or a mishap makes it fail, and says
that there is no document only if the mishap says that there is no file. -/
theorem mayEnd_loadDocument {α : Type} {directory name : String} {kind : DocumentKind}
    {reader : Reader α} {result : Except Failure α}
    (h : MayEnd allowed d (loadDocument directory kind name reader).run d' result) :
    d' = d ∧ (result = documentOn d directory kind name reader ∨
      ∃ m f, allowed m ∧ result = .error f ∧ (f.isNotFound = true → m.error = .missing)) := by
  rw [loadDocument] at h
  rw [documentOn]
  cases hpath : documentPath directory kind name with
  | error f =>
    rw [hpath] at h
    obtain ⟨rfl, rfl⟩ := h.eq_of_done
    exact ⟨rfl, .inl rfl⟩
  | ok path =>
    rw [hpath] at h
    replace h : MayEnd allowed d (Filing.perform (.read path) >>= _) d' result := h
    obtain ⟨d₁, r, hact, hrest⟩ := h.of_bind
    rcases hact.of_perform with hdone | ⟨m, allows, rfl, rfl⟩
    · obtain ⟨rfl, rfl⟩ := Prod.ext_iff.1 hdone
      simp only [Disk.perform] at hrest
      cases hread : d.read path with
      | ok content =>
        rw [hread] at hrest
        obtain ⟨rfl, rfl⟩ := hrest.eq_of_done
        exact ⟨rfl, .inl (by simp only [hread])⟩
      | error e =>
        rw [hread] at hrest
        cases e with
        | missing | occupied | notDirectory | isDirectory | nameTooLong | nulByte | other =>
          obtain ⟨rfl, rfl⟩ := hrest.eq_of_done
          exact ⟨rfl, .inl (by simp only [hread])⟩
    · cases hm : m.error with
      | missing =>
        rw [hm] at hrest
        obtain ⟨rfl, rfl⟩ := hrest.eq_of_done
        exact ⟨rfl, .inr ⟨m, _, allows, rfl, fun _ => hm⟩⟩
      | occupied | notDirectory | isDirectory | nameTooLong | nulByte | other =>
        rw [hm] at hrest
        obtain ⟨rfl, rfl⟩ := hrest.eq_of_done
        exact ⟨rfl, .inr ⟨m, _, allows, rfl, fun hmissing => Bool.noConfusion hmissing⟩⟩

theorem mayEnd_loadLayout {name : String} {result : Except Failure Layout}
    (h : MayEnd allowed d (store.loadLayout name).run d' result) :
    d' = d ∧ (result = store.layoutOn d name ∨
      ∃ m f, allowed m ∧ result = .error f ∧ (f.isNotFound = true → m.error = .missing)) := by
  rw [loadLayout] at h
  rw [layoutOn]
  rcases mayEnd_bind h with ⟨f, hload, rfl⟩ | ⟨d₁, found, hload, hrest⟩
  · obtain ⟨rfl, hresult | hmishap⟩ := mayEnd_loadDocument hload
    · rw [← hresult]
      exact ⟨rfl, .inl rfl⟩
    · exact ⟨rfl, .inr hmishap⟩
  · obtain ⟨rfl, hresult | ⟨m, f, -, hresult, -⟩⟩ := mayEnd_loadDocument hload
    · rw [← hresult, Except.map]
      obtain ⟨rfl, rfl⟩ := hrest.eq_of_done
      refine ⟨rfl, .inl ?_⟩
      by_cases hname : found.name.isEmpty
      · rw [if_pos hname, if_pos hname]
        rfl
      · rw [if_neg hname, if_neg hname]
        rfl
    · cases hresult

/-- There is a file of that name, and what it holds is no layout. -/
def Malformed (store : Store) (d : Disk) (name : String) : Prop :=
  ∃ content f, d.read (store.layoutFile name) = .ok content ∧
    decode .layout name Layout.reader content = .error f

theorem isNotFound_decode {α : Type} {kind : DocumentKind} {name : String} {reader : Reader α}
    {content : List UInt8} {f : Failure} (h : decode kind name reader content = .error f) :
    f.isNotFound = false := by
  rw [decode] at h
  split at h
  · cases h
    rfl
  · split at h <;> cases h
    rfl

/-- What is loaded of a malformed file. -/
theorem Malformed.layoutOn {name : String} (h : store.Malformed d name)
    (hplain : isPlain name = true) :
    ∃ f, store.layoutOn d name = .error f ∧ f.isNotFound = false := by
  obtain ⟨content, f, hread, hdecode⟩ := h
  refine ⟨f, ?_, isNotFound_decode hdecode⟩
  have hon : documentOn d store.layouts .layout name Layout.reader = .error f := by
    rw [documentOn, documentPath_layout store hplain]
    simp only [hread]
    exact hdecode
  rw [Store.layoutOn, hon]
  rfl

end Store

/-! ## Recording -/

namespace Service

open Filing Store

variable {store : Store} {allowed : Disk.Mishap → Prop} {d d' : Disk} {name : String}

/-- A position is recorded in the layout that is there, or in a new one if there is none, or if a
mishap says so. -/
theorem mayEnd_layoutToLearn {result : Except Failure Layout}
    (h : MayEnd allowed d (layoutToLearn store name).run d' result) :
    d' = d ∧ ∀ layout, result = .ok layout → store.layoutOn d name = .ok layout ∨
      layout = .new name ∧ ((∃ f, store.layoutOn d name = .error f ∧ f.isNotFound = true) ∨
        ∃ m, allowed m ∧ m.error = .missing) := by
  replace h : MayEnd allowed d ((store.loadLayout name).run >>= _) d' result := h
  obtain ⟨d₁, loaded, hload, h⟩ := h.of_bind
  obtain ⟨rfl, hloaded⟩ := mayEnd_loadLayout hload
  cases loaded with
  | ok found =>
    obtain ⟨rfl, rfl⟩ := h.eq_of_done
    refine ⟨rfl, fun layout hlayout => .inl ?_⟩
    cases hlayout
    rcases hloaded with hon | ⟨_, _, _, hfailed, _⟩
    · exact hon.symm
    · cases hfailed
  | error f =>
    cases hf : f.isNotFound with
    | false =>
      have hend : d' = d₁ ∧ result = .error f := by
        cases f with
        | notFound => cases hf
        | _ => exact h.eq_of_done
      refine ⟨hend.1, fun layout hlayout => ?_⟩
      cases hend.2.symm.trans hlayout
    | true =>
      have hend : d' = d₁ ∧ result = .ok (.new name) := by
        cases f with
        | notFound => exact h.eq_of_done
        | _ => cases hf
      refine ⟨hend.1, fun layout hlayout => .inr ⟨?_, ?_⟩⟩
      · cases hend.2.symm.trans hlayout
        rfl
      · rcases hloaded with hon | ⟨m, g, allows, hfailed, hmissing⟩
        · exact .inl ⟨f, hon.symm, hf⟩
        · cases hfailed
          exact .inr ⟨m, allows, hmissing hf⟩

variable {side : Side} {position : String} {p : Point}

/-- **A position that could not be recorded** has not touched any document. -/
theorem keepsDocuments_of_learn {f : Failure}
    (h : MayEnd allowed d (learn store name side position p).run d' (.error f)) :
    KeepsDocuments d d' := by
  rcases mayEnd_bind h with ⟨_, hlearn, -⟩ | ⟨d₁, layout, hlearn, hrest⟩
  · obtain ⟨rfl, -⟩ := mayEnd_layoutToLearn hlearn
    exact .rfl
  · obtain ⟨rfl, -⟩ := mayEnd_layoutToLearn hlearn
    rcases mayEnd_bind hrest with ⟨_, hsave, -⟩ | ⟨d₂, path, _, hdone⟩
    · exact keepsDocuments_of_saveLayout hsave
    · cases hdone.eq_of_done.2

/-- No position is recorded in a layout whose name is none, nor in a malformed one, as long as no
mishap says that there is no file. -/
theorem error_of_learn {result : Except Failure (Option Json)}
    (h : MayEnd allowed d (learn store name side position p).run d' result)
    (hrefused : isPlain name = false ∨
      store.Malformed d name ∧ ∀ m, allowed m → m.error ≠ .missing) :
    ∃ f, result = .error f := by
  rcases mayEnd_bind h with ⟨f, -, rfl⟩ | ⟨d₁, layout, hlearn, hrest⟩
  · exact ⟨f, rfl⟩
  obtain ⟨rfl, hlayout⟩ := mayEnd_layoutToLearn hlearn
  cases hplain : isPlain name with
  | true =>
    exfalso
    obtain ⟨hmalformed, htrue⟩ := hrefused.resolve_left (by simp [hplain])
    obtain ⟨f, hon, hf⟩ := hmalformed.layoutOn hplain
    rcases hlayout layout rfl with hfound | ⟨-, ⟨g, hg, hnone⟩ | ⟨m, allows, hm⟩⟩
    · cases hon.symm.trans hfound
    · cases hon.symm.trans hg
      cases hf.symm.trans hnone
    · exact htrue m allows hm
  | false =>
    have hpath := store.documentPath_not_plain (Bool.eq_false_iff.1 hplain)
    have hnone : store.layoutOn d₁ name = .error (.notFound .layout name) := by
      rw [layoutOn, documentOn, hpath]
      rfl
    rcases hlayout layout rfl with hfound | ⟨rfl, -⟩
    · cases hnone.symm.trans hfound
    -- so it would be a new layout, which has no place
    rcases mayEnd_bind hrest with ⟨f, -, rfl⟩ | ⟨d₂, path, hsave, -⟩
    · exact ⟨f, rfl⟩
    · have hnowhere : store.layoutPath ((Layout.new name).learn side position p) =
          .error (.notFound .layout name) := hpath
      rw [saveLayout, hnowhere] at hsave
      cases hsave.eq_of_done.2

end Service

/-! ## Requests -/

/-- What comes of a request that needs no turn at the controller, when those acts on files fail that
the list says. -/
def Begun.outcome? (mishaps : List (Option Disk.Mishap)) (d : Disk) :
    Begun → Option (Disk × Except Failure (Option Json))
  | .answered _ result => some (d, result)
  | .filing work => some (Filing.runWith mishaps d work.run)
  | .preparing _ | .turn _ _ => none

namespace Store

open Filing Service

/-- **Failed work damages no document.**  Whatever is on the disk and whichever acts fail: if a
layout could not be saved, or a request to record a position is answered with a failure, all
documents are as they were.  Such a request always fails if the name is none of a layout, or if the
layout is malformed. -/
theorem documents_undamaged (store : Store) (d : Disk) (mishaps : List (Option Disk.Mishap)) :
    (∀ (layout : Layout) (f : Failure),
        (runWith mishaps d (store.saveLayout layout).run).2 = .error f →
          KeepsDocuments d (runWith mishaps d (store.saveLayout layout).run).1) ∧
      ∀ (b : Bench) (name : String) (side : Side) (position : String) (x y : Option Float),
        ∃ outcome,
          (begin store b (.learn name side position x y)).outcome? mishaps d = some outcome ∧
          (∀ f, outcome.2 = .error f → KeepsDocuments d outcome.1) ∧
          (isPlain name = false ∨
              store.Malformed d name ∧ (∀ m, some m ∈ mishaps → m.error ≠ .missing) →
            (∃ f, outcome.2 = .error f) ∧ KeepsDocuments d outcome.1) := by
  refine ⟨fun layout f hfailed => ?_, fun b name side position x y => ?_⟩
  · have hend : MayEnd (some · ∈ mishaps) d (store.saveLayout layout).run _ _ :=
      mayEnd_runWith (fun m hm => hm) d _
    rw [hfailed] at hend
    exact keepsDocuments_of_saveLayout hend
  · rw [begin]
    cases pointToLearn b.controller.published x y with
    | error f => exact ⟨_, rfl, fun _ _ => .rfl, fun _ => ⟨⟨f, rfl⟩, .rfl⟩⟩
    | ok p =>
      have hend : MayEnd (some · ∈ mishaps) d (learn store name side position p).run _ _ :=
        mayEnd_runWith (fun m hm => hm) d _
      refine ⟨_, rfl, fun f hfailed => ?_, fun hrefused => ?_⟩
      · rw [hfailed] at hend
        exact keepsDocuments_of_learn hend
      · obtain ⟨f, hfailed⟩ := error_of_learn hend hrefused
        rw [hfailed] at hend
        exact ⟨⟨f, hfailed⟩, keepsDocuments_of_learn hend⟩

/-- A disk with a layout, and with a file that is named like one and holds something else. -/
def withLayouts : Disk :=
  { entries := [(["layouts"], .directory),
      (["layouts", "a.json"], .file (Text.Utf8.encode "\x7b\x7d")),
      (["layouts", "b.json"], .file (Text.Utf8.encode "\x7b"))] }

/-- The disk is full. -/
def full : Disk.Mishap :=
  { error := .other "No space left on device (os error 28)", written := some 1 }

/-- The draft is written and cannot be renamed; and the layout in which another position is to be
recorded is malformed. -/
theorem documents_undamaged_fullDisk :
    let saved := runWith [none, none, some full] withLayouts
      (saveLayout ⟨"scripts", "layouts"⟩ (.new "a")).run
    (∃ f, saved.2 = .error f) ∧ KeepsDocuments withLayouts saved.1 ∧
      ∃ outcome, (begin ⟨"scripts", "layouts"⟩ (.fresh {})
          (.learn "b" .left "p" (some 3) (some 4))).outcome? [none, some full] withLayouts =
            some outcome ∧
        (∃ f, outcome.2 = .error f) ∧ KeepsDocuments withLayouts outcome.1 := by
  intro saved
  obtain ⟨f, hf⟩ := error_of_isOk (r := saved.2) (by decide +kernel)
  have hmalformed : Malformed ⟨"scripts", "layouts"⟩ withLayouts "b" := by
    have hfile : layoutFile ⟨"scripts", "layouts"⟩ "b" = "layouts/b.json" := by decide +kernel
    have hread : withLayouts.read "layouts/b.json" = .ok (Text.Utf8.encode "\x7b") :=
      ok_of_toOption (by decide +kernel)
    obtain ⟨f, hdecode⟩ := error_of_isOk
      (r := decode .layout "b" Layout.reader (Text.Utf8.encode "\x7b")) (by decide +kernel)
    exact ⟨_, f, by rw [hfile, hread], hdecode⟩
  have htrue : ∀ m, some m ∈ [none, some full] → m.error ≠ .missing := by
    intro m hm
    obtain rfl : m = full := by simpa using hm
    decide
  have hkept := (documents_undamaged ⟨"scripts", "layouts"⟩ withLayouts
    [none, none, some full]).1 (.new "a") f hf
  obtain ⟨outcome, houtcome, -, hrefused⟩ := (documents_undamaged ⟨"scripts", "layouts"⟩ withLayouts
    [none, some full]).2 (.fresh {}) "b" .left "p" (some 3) (some 4)
  exact ⟨⟨f, hf⟩, hkept, outcome, houtcome, hrefused (.inr ⟨hmalformed, htrue⟩)⟩

end Store
end Stylus
