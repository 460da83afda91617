import Stylus.Proofs.Store.Saving

/-!
# Where work on files can reach

Work on files is a tree of acts, so what it may come to ask for is all there in the tree, whatever
is on the disk and whatever fails.  Names come from clients, and a layout is written to the file
that it remembers; this file follows both through all that a request does.

* `Filing.Within`, `Filing.Asks` — every act that work can come to ask for is allowed;
* `FileAct.Serves` — the acts that serve a request: they lead to files that are called for the names
  in it, directly inside the store's directories;
* `Service.within_begin` — **whatever a request asks for serves it**;
* `Store.name_of_path`, `Store.not_mem_pathsOf` — different names have no file in common;
* `Filing.MayEnd.content?_eq` — what no act touches stays, whichever of them fail.
-/

set_option autoImplicit false

namespace Stylus

/-! ## What work asks for -/

namespace Filing

variable {α β : Type} {allowed : FileAct → Prop} {yields : α → Prop}

/-- **Every act that work asks for is allowed**, whatever the answers, and what it yields at the end
has the property. -/
inductive Within (allowed : FileAct → Prop) {α : Type} (yields : α → Prop) : Filing α → Prop where
  | done {a : α} (yielded : yields a) : Within allowed yields (.done a)
  | act {a : FileAct} {next : Except FileError a.Result → Filing α} (allows : allowed a)
      (rest : ∀ r, Within allowed yields (next r)) : Within allowed yields (.act a next)

/-- Work can come to ask for that act. -/
inductive Asks {α : Type} : Filing α → FileAct → Prop where
  | now (a : FileAct) (next : Except FileError a.Result → Filing α) : Asks (.act a next) a
  | later {a b : FileAct} {next : Except FileError a.Result → Filing α}
      {r : Except FileError a.Result} (rest : Asks (next r) b) : Asks (.act a next) b

theorem Within.allowed_of_asks {work : Filing α} (h : Within allowed yields work) {a : FileAct}
    (asks : Asks work a) : allowed a := by
  induction asks with
  | now a next =>
    cases h with
    | act allows _ => exact allows
  | later _ ih =>
    cases h with
    | act _ rest => exact ih (rest _)

theorem Within.bind {yields' : β → Prop} {work : Filing α} {f : α → Filing β}
    (h : Within allowed yields work) (hf : ∀ a, yields a → Within allowed yields' (f a)) :
    Within allowed yields' (work >>= f) := by
  show Within allowed yields' (work.bind f)
  induction h with
  | done yielded => exact hf _ yielded
  | act allows _ ih => exact .act allows ih

theorem within_perform {a : FileAct} (h : allowed a) :
    Within allowed (fun _ => True) (perform a) :=
  .act h fun _ => .done trivial

end Filing

namespace Store

variable {α β : Type} {allowed : FileAct → Prop} {yields : α → Prop}

/-- Work that can fail asks for allowed acts, and what it yields if it does not fail has the
property. -/
def Within (allowed : FileAct → Prop) (yields : α → Prop) (work : Storing α) : Prop :=
  Filing.Within allowed (fun r => ∀ a, r = .ok a → yields a) work.run

theorem Within.bind {yields' : β → Prop} {work : Storing α} {f : α → Storing β}
    (h : Within allowed yields work) (hf : ∀ a, yields a → Within allowed yields' (f a)) :
    Within allowed yields' (work >>= f) := by
  refine Filing.Within.bind h fun r hr => ?_
  cases r with
  | ok a => exact hf a (hr a rfl)
  | error f => exact .done nofun

theorem within_pure {a : α} (h : yields a) : Within allowed yields (pure a : Storing α) := by
  refine .done fun b hb => ?_
  cases hb
  exact h

theorem within_fail (f : Failure) : Within allowed yields (fail f : Storing α) :=
  .done nofun

theorem within_perform {a : FileAct} (h : allowed a) :
    Within allowed (fun _ => True) (perform a) := by
  refine Filing.Within.bind (Filing.within_perform h) fun r _ => ?_
  cases r <;> exact .done fun _ _ => trivial

/-! ## Files of names -/

/-- What the file of a document is called. -/
def fileName (name : String) : String :=
  name ++ "." ++ extension

/-- What a document is called while it is written. -/
def draftName (name : String) : String :=
  name ++ "." ++ "json.tmp"

theorem ne_empty_of_isPlain {name : String} (h : isPlain name = true) : name ≠ "" := by
  rintro rfl
  cases h

theorem inside_document {directory name path : String} {kind : DocumentKind}
    (h : documentPath directory kind name = .ok path) :
    isPlain name = true ∧ Path.Inside directory (fileName name) path := by
  rw [documentPath] at h
  split at h
  · rename_i hplain
    cases h
    exact ⟨hplain, Path.inside_join (isName_document hplain)⟩
  · cases h

/-- A draft lies beside its document. -/
theorem inside_draft {directory name path : String} (hplain : isPlain name = true)
    (h : Path.Inside directory (fileName name) path) :
    Path.Inside directory (draftName name) (draftPath path) := by
  have hinside := h.withExtension isName_draft
  rwa [fileName, Path.stem_extended (ne_empty_of_isPlain hplain) (by decide)] at hinside

theorem fileName_inj {name other : String} (h : fileName name = fileName other) : name = other := by
  simpa [fileName, ← String.toList_inj] using h

theorem draftName_inj {name other : String} (h : draftName name = draftName other) :
    name = other := by
  simpa [draftName, ← String.toList_inj] using h

/-- No draft is called like a document. -/
theorem fileName_ne_draftName (name other : String) : fileName name ≠ draftName other := by
  intro h
  have hlast := congrArg (fun text : String => text.toList.getLast?) h
  simp [fileName, draftName, extension] at hlast

theorem not_isDocument_draftName (directory : List String) (name : String) :
    ¬IsDocument (directory ++ [draftName name]) := by
  rintro ⟨last, hlast, before, hsuffix⟩
  rw [List.getLast?_concat, Option.some.injEq] at hlast
  subst hlast
  have hends := congrArg List.getLast? hsuffix
  simp [draftName, extension] at hends

/-- **A path leads to one name only** in a directory. -/
theorem name_of_path {directory name other path path' : String}
    (h : Path.Inside directory name path) (h' : Path.Inside directory other path')
    (hsame : Path.components path = Path.components path') : name = other := by
  rw [h.leads, h'.leads, List.append_cancel_left_eq, List.singleton_inj] at hsame
  exact hsame

/-! ## Reading and writing -/

variable {store : Store}

/-- Reading a document asks for its file only, and yields what the content is decoded as. -/
theorem within_loadDocument {directory name : String} {kind : DocumentKind} {reader : Reader α}
    (h : ∀ path, documentPath directory kind name = .ok path → allowed (.read path))
    (hdecoded : isPlain name = true → ∀ content a, decode kind name reader content = .ok a →
      yields a) :
    Within allowed yields (loadDocument directory kind name reader) := by
  rw [loadDocument]
  cases hpath : documentPath directory kind name with
  | error f => exact within_fail f
  | ok path =>
    have hplain := (inside_document hpath).1
    refine Filing.Within.bind (Filing.within_perform (h path hpath)) fun r _ => ?_
    cases r with
    | ok content => exact .done (hdecoded hplain content)
    | error e => cases e <;> exact .done (by rintro _ ⟨⟩)

theorem within_listNames {directory : String} (h : allowed (.list directory)) :
    Within allowed (fun _ => True) (listNames directory) := by
  refine Filing.Within.bind (Filing.within_perform h) fun r _ => ?_
  cases r with
  | ok files => exact .done fun _ _ => trivial
  | error e => cases e <;> exact .done fun _ _ => trivial

/-- A layout that was loaded remembers where from. -/
theorem within_loadLayout {name : String}
    (h : ∀ path, documentPath store.layouts .layout name = .ok path → allowed (.read path)) :
    Within allowed (fun layout => store.layoutPath layout = documentPath store.layouts .layout name)
      (store.loadLayout name) := by
  refine (within_loadDocument h fun hplain _ _ _ => hplain).bind fun layout hplain => within_pure ?_
  rw [documentPath_layout store hplain]
  by_cases hname : layout.name.isEmpty
  · rw [if_pos hname]
    rfl
  · rw [if_neg hname]
    rfl

/-- **Saving asks for nothing but the file of the layout**, its draft and its directory. -/
theorem within_saveLayout {layout : Layout}
    (h : ∀ path, store.layoutPath layout = .ok path →
      allowed (.makeDirectory (Path.parent path)) ∧
        allowed (.write (draftPath path) (encode layout)) ∧
        allowed (.rename (draftPath path) path)) :
    Within allowed (fun _ => True) (store.saveLayout layout) := by
  rw [saveLayout]
  cases hpath : store.layoutPath layout with
  | error f => exact within_fail f
  | ok path =>
    obtain ⟨hmake, hwrite, hrename⟩ := h path hpath
    refine (within_perform hmake).bind fun _ _ => ?_
    refine (within_perform hwrite).bind fun _ _ => ?_
    exact (within_perform hrename).bind fun _ _ => within_pure trivial

end Store

/-! ## Requests -/

namespace Request

/-- The names of scripts in a request. -/
def scripts : Request → List String
  | runScript script _ _ _ => [script]
  | _ => []

/-- The names of layouts in a request. -/
def layouts : Request → List String
  | runScript _ left right _ => left.toList ++ right.toList
  | learn layout _ _ _ _ => [layout]
  | _ => []

/-- The names of layouts that a request records positions in. -/
def learns : Request → List String
  | learn layout _ _ _ _ => [layout]
  | _ => []

end Request

open Store in
/-- **The acts that serve a request**, and where they lead: a document of a name in the request is
read from the directory of its kind, and a layout that a position is recorded in is written beside
its document and then renamed. -/
inductive FileAct.Serves (store : Store) (r : Request) : FileAct → Prop where
  | scripts (asked : r = .listScripts) : Serves store r (.list store.scripts)
  | layouts (asked : r = .listLayouts) : Serves store r (.list store.layouts)
  | script {name path : String} (asked : name ∈ r.scripts) (plain : isPlain name = true)
      (inside : Path.Inside store.scripts (fileName name) path) : Serves store r (.read path)
  | layout {name path : String} (asked : name ∈ r.layouts) (plain : isPlain name = true)
      (inside : Path.Inside store.layouts (fileName name) path) : Serves store r (.read path)
  | directory {path : String} (asked : r.learns ≠ [])
      (leads : Path.components path = Path.components store.layouts)
      (root : path.startsWith "/" = store.layouts.startsWith "/") :
      Serves store r (.makeDirectory path)
  | draft {name path : String} {content : List UInt8} (asked : name ∈ r.learns)
      (plain : isPlain name = true) (inside : Path.Inside store.layouts (draftName name) path) :
      Serves store r (.write path content)
  | document {name path path' : String} (asked : name ∈ r.learns) (plain : isPlain name = true)
      (draft : Path.Inside store.layouts (draftName name) path)
      (inside : Path.Inside store.layouts (fileName name) path') :
      Serves store r (.rename path path')

/-- The work on files that a request comes to. -/
def Begun.work : Begun → Filing Unit
  | .answered _ _ | .turn _ _ => .done ()
  | .filing work => do let _ ← work.run
  | .preparing work => do let _ ← work.run

namespace Service

open Store

variable {allowed : FileAct → Prop} {store : Store} {r : Request} {name : String}

/-- A position is recorded in a layout that belongs into the file of its name. -/
theorem within_layoutToLearn
    (h : ∀ path, documentPath store.layouts .layout name = .ok path → allowed (.read path)) :
    Within allowed (fun layout => store.layoutPath layout = documentPath store.layouts .layout name)
      (layoutToLearn store name) := by
  refine Filing.Within.bind (within_loadLayout h) fun loaded hloaded => ?_
  cases loaded with
  | ok layout =>
    refine .done fun found hfound => ?_
    cases hfound
    exact hloaded layout rfl
  | error f =>
    cases f with
    | notFound =>
      refine .done fun found hfound => ?_
      cases hfound
      rfl
    | _ => exact .done nofun

theorem within_documents {script : String} {left right : Option String} {side : Option Side}
    (hscript : ∀ path, documentPath store.scripts .script script = .ok path → allowed (.read path))
    (hlayouts : ∀ name ∈ left.toList ++ right.toList, ∀ path,
      documentPath store.layouts .layout name = .ok path → allowed (.read path)) :
    Within allowed (fun _ => True) (documents store script left right side) := by
  have optional {wanted : Option String}
      (h : ∀ name ∈ wanted.toList, ∀ path,
        documentPath store.layouts .layout name = .ok path → allowed (.read path)) :
      Within allowed (fun _ => True) (optionalLayout store wanted) := by
    cases wanted with
    | none => exact within_pure trivial
    | some name =>
      exact (within_loadLayout (h name (Option.mem_toList.2 rfl))).bind
        fun _ _ => within_pure trivial
  have hload : Within allowed (fun _ => True) (store.loadScript script) :=
    (within_loadDocument hscript fun _ _ _ _ => trivial).bind fun _ _ => within_pure trivial
  refine hload.bind fun _ _ => ?_
  have hleft := optional fun name hname => hlayouts name (List.mem_append_left _ hname)
  have hright := optional fun name hname => hlayouts name (List.mem_append_right _ hname)
  refine hleft.bind fun _ _ => ?_
  refine hright.bind fun _ _ => ?_
  exact within_pure trivial

theorem serves_read {path : String} (hname : name ∈ r.layouts)
    (hpath : documentPath store.layouts .layout name = .ok path) :
    FileAct.Serves store r (.read path) := by
  obtain ⟨hplain, hinside⟩ := inside_document hpath
  exact .layout hname hplain hinside

/-- Recording a position serves the request to do so. -/
theorem within_learn {side : Side} {position : String} {p : Point} (hreads : name ∈ r.layouts)
    (hlearns : name ∈ r.learns) :
    Within (FileAct.Serves store r) (fun _ => True) (learn store name side position p) := by
  refine (within_layoutToLearn fun path => serves_read hreads).bind fun layout hlayout => ?_
  refine Within.bind (within_saveLayout fun path hpath => ?_) fun _ _ => within_pure trivial
  have hdocument : documentPath store.layouts .layout name = .ok path := hlayout.symm.trans hpath
  obtain ⟨hplain, hinside⟩ := inside_document hdocument
  have hdraft := inside_draft hplain hinside
  refine ⟨.directory (List.ne_nil_of_mem hlearns) ?_ ?_, .draft hlearns hplain hdraft,
    .document hlearns hplain hdraft hinside⟩
  · rw [Path.components_parent, hinside.leads, List.dropLast_concat]
  · rw [Path.startsWith_parent, hinside.root]

theorem within_work {α : Type} {work : Storing α} (h : Within allowed (fun _ => True) work) :
    Filing.Within allowed (fun _ => True) (work.run >>= fun _ => .done ()) :=
  Filing.Within.bind h fun _ _ => .done trivial

/-- **Whatever a request asks for serves it.** -/
theorem within_begin (store : Store) (b : Bench) (r : Request) :
    Filing.Within (FileAct.Serves store r) (fun _ => True) (begin store b r).work := by
  cases r with
  | runScript script left right side =>
    rw [begin]
    split
    · exact .done trivial
    · refine within_work (within_documents (fun path hpath => ?_) fun name hname path => ?_)
      · obtain ⟨hplain, hinside⟩ := inside_document hpath
        exact .script List.mem_cons_self hplain hinside
      · exact serves_read hname
  | listScripts =>
    exact within_work ((within_listNames (.scripts rfl)).bind fun _ _ => within_pure trivial)
  | listLayouts =>
    exact within_work ((within_listNames (.layouts rfl)).bind fun _ _ => within_pure trivial)
  | learn layout side position x y =>
    rw [begin]
    split
    · exact within_work (within_learn List.mem_cons_self List.mem_cons_self)
    · exact .done trivial
  | _ => exact .done trivial

end Service

/-! ## What changes -/

/-- The paths whose files an act can change. -/
def FileAct.touched : FileAct → List (List String)
  | .write path _ => [Path.components path]
  | .rename source target => [Path.components source, Path.components target]
  | .read _ | .list _ | .makeDirectory _ => []

namespace Disk

variable {d : Disk} {a : FileAct} {q : List String}

/-- **An act changes only the files that it touches.** -/
theorem content?_perform (h : q ∉ a.touched) : (d.perform a).1.content? q = d.content? q := by
  cases a with
  | read | list => rfl
  | makeDirectory path => exact d.content?_makeDirectory path q
  | write path content => exact content?_write (by simpa [FileAct.touched] using h) content
  | rename source target =>
    obtain ⟨hsource, htarget⟩ : q ≠ Path.components source ∧ q ≠ Path.components target := by
      simpa [FileAct.touched] using h
    show (d.rename source target).1.content? q = _
    rcases d.rename_cases source target with ⟨e, hrename⟩ | ⟨entry, -, -, -, hrename⟩
    · rw [hrename]
    · rw [hrename, content?_put_of_ne htarget, content?, get?_erase hsource]
      rfl

/-- Nor does one that fails change any other. -/
theorem content?_fail_of_not_touched (m : Mishap) (h : q ∉ a.touched) :
    (d.fail m a).content? q = d.content? q := by
  refine content?_fail m fun path content ha => ?_
  subst ha
  simpa [FileAct.touched] using h

end Disk

namespace Filing

variable {α : Type} {allowed : FileAct → Prop} {yields : α → Prop} {mishap : Disk.Mishap → Prop}

/-- **What no act touches stays**, whichever acts fail. -/
theorem MayEnd.content?_eq {d d' : Disk} {work : Filing α} {a : α} {q : List String}
    (hend : MayEnd mishap d work d' a) (h : Within allowed yields work)
    (htouched : ∀ act, allowed act → q ∉ act.touched) : d'.content? q = d.content? q := by
  induction hend with
  | done => rfl
  | performed rest ih =>
    cases h with
    | act allows within =>
      rw [ih (within _), Disk.content?_perform (htouched _ allows)]
  | failed m _ rest ih =>
    cases h with
    | act allows within =>
      rw [ih (within _), Disk.content?_fail_of_not_touched m (htouched _ allows)]

theorem run_mayEnd (d : Disk) (work : Filing α) :
    MayEnd mishap d work (run d work).1 (run d work).2 := by
  induction work generalizing d with
  | done a => exact .done d a
  | act a next ih => exact .performed (ih _ _)

end Filing

namespace Store

/-- The paths of the files that serve to record a position in a layout: its document and its
draft. -/
def pathsOf (store : Store) (name : String) : List (List String) :=
  [Path.components store.layouts ++ [fileName name],
    Path.components store.layouts ++ [draftName name]]

/-- **An act that serves a request changes only files of layouts that it records positions in.** -/
theorem touched_of_serves {store : Store} {r : Request} {a : FileAct} {q : List String}
    (h : FileAct.Serves store r a) (hq : q ∈ a.touched) :
    ∃ name ∈ r.learns, isPlain name = true ∧ q ∈ store.pathsOf name := by
  cases h with
  | scripts | layouts | script | layout | directory => cases hq
  | draft asked plain inside =>
    obtain rfl : q = _ := List.mem_singleton.1 hq
    exact ⟨_, asked, plain, by simp [pathsOf, inside.leads]⟩
  | document asked plain draft inside =>
    refine ⟨_, asked, plain, ?_⟩
    simpa [FileAct.touched, pathsOf, inside.leads, draft.leads, or_comm] using hq

/-- The files of different names are different, drafts and documents alike. -/
theorem not_mem_pathsOf {store : Store} {name other : String} (h : name ≠ other)
    {path : List String} (hname : path ∈ store.pathsOf name) : path ∉ store.pathsOf other := by
  intro hother
  simp only [pathsOf, List.mem_cons, List.not_mem_nil, or_false] at hname hother
  rcases hname with rfl | rfl <;> rcases hother with hsame | hsame <;>
    rw [List.append_cancel_left_eq, List.singleton_inj] at hsame
  · exact h (fileName_inj hsame)
  · exact fileName_ne_draftName _ _ hsame
  · exact fileName_ne_draftName _ _ hsame.symm
  · exact h (draftName_inj hsame)

/-- A document that serves to record a position is the one of that name. -/
theorem eq_of_mem_pathsOf {store : Store} {name : String} {path : List String}
    (h : path ∈ store.pathsOf name) (hpath : IsDocument path) :
    path = Path.components store.layouts ++ [fileName name] := by
  simp only [pathsOf, List.mem_cons, List.not_mem_nil, or_false] at h
  refine h.resolve_right ?_
  rintro rfl
  exact not_isDocument_draftName _ name hpath

end Store
end Stylus
