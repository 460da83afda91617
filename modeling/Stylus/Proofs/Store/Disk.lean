import Stylus.Store.Basic
import Stylus.Store.Disk

/-!
# What is saved is what is read

A layout is written beside its file and then takes the file's place.  This file follows the bytes
through both steps: each of them changes what one path leads to and keeps every directory, so the
way to the file stays open.

* `get?_put`, `get?_erase` — what paths lead to after a change;
* `resolve_write`, `read_rename` — what was written is there, and is read under the new name;
* `run_bind` — work that can fail is carried out one part after the other;
* `read_of_saveLayout` — a layout that was saved is in its file.
-/

set_option autoImplicit false

namespace Stylus
namespace Disk

/-! ## What paths lead to -/

theorem get?_of_ne_nil {d : Disk} {path : List String} (h : path ≠ []) :
    d.get? path = (d.entries.find? (·.1 = path)).map (·.2) := by
  rw [get?, if_neg (by rwa [List.isEmpty_iff])]

theorem get?_erase {d : Disk} {path q : List String} (h : q ≠ path) :
    (d.erase path).get? q = d.get? q := by
  by_cases hq : q = []
  · subst hq
    rfl
  · rw [get?_of_ne_nil hq, get?_of_ne_nil hq, erase, List.find?_filter]
    congr 2
    funext e
    by_cases he : e.1 = q
    · simp [he, h]
    · simp [he]

theorem get?_put_of_ne {d : Disk} {path q : List String} (h : q ≠ path) (entry : DiskEntry) :
    (d.put path entry).get? q = d.get? q := by
  rw [← get?_erase (d := d) h]
  by_cases hq : q = []
  · subst hq
    rfl
  · rw [get?_of_ne_nil hq, get?_of_ne_nil hq, put, List.find?_append]
    have hne : [(path, entry)].find? (·.1 = q) = none := by
      simpa using fun heq => h heq.symm
    rw [hne, Option.or_none]

theorem get?_put {d : Disk} {path q : List String} (hpath : path ≠ []) (entry : DiskEntry) :
    (d.put path entry).get? q = if q = path then some entry else d.get? q := by
  by_cases h : q = path
  · subst h
    have hgone : (d.erase q).entries.find? (·.1 = q) = none := by
      rw [erase, List.find?_eq_none]
      intro e he
      simpa using (List.mem_filter.1 he).2
    rw [if_pos rfl, get?_of_ne_nil hpath, put, List.find?_append, hgone]
    simp
  · rw [if_neg h, get?_put_of_ne h]

/-! ## The way to a path -/

/-- Every directory stays, but for what is at that path. -/
def KeepsDirectories (d d' : Disk) (path : List String) : Prop :=
  ∀ q, q ≠ path → d.get? q = some .directory → d'.get? q = some .directory

theorem wayFrom_kept {d d' : Disk} (names before : List String)
    (hkeep : KeepsDirectories d d' (before ++ names)) (h : d.wayFrom before names = none) :
    d'.wayFrom before names = none := by
  induction names generalizing before with
  | nil => rfl
  | cons name rest ih =>
    rw [wayFrom] at h ⊢
    cases hget : d.get? before with
    | none =>
      rw [hget] at h
      cases h
    | some entry =>
      cases entry with
      | file content =>
        rw [hget] at h
        cases h
      | directory =>
        rw [hget] at h
        have hne : before ≠ before ++ name :: rest := by simp
        rw [hkeep before hne hget]
        by_cases hlong : nameLimit < name.utf8ByteSize
        · simp only [if_pos hlong] at h
          cases h
        · simp only [if_neg hlong] at h ⊢
          exact ih (before ++ [name]) (by rwa [List.append_assoc, List.singleton_append]) h

theorem way_kept {d d' : Disk} {path : String}
    (hkeep : KeepsDirectories d d' (Path.components path)) (h : d.way path = none) :
    d'.way path = none := by
  rw [way] at h ⊢
  by_cases hnul : path.toList.contains '\x00'
  · rw [if_pos hnul] at h
    cases h
  · rw [if_neg hnul] at h ⊢
    by_cases hlong : pathLimit < path.utf8ByteSize
    · rw [if_pos hlong] at h
      cases h
    · rw [if_neg hlong] at h ⊢
      exact wayFrom_kept _ [] hkeep h

theorem way_of_resolve {d : Disk} {path : String} {entry : DiskEntry}
    (h : d.resolve path = .ok entry) :
    d.way path = none ∧ d.get? (Path.components path) = some entry := by
  rw [resolve] at h
  cases hway : d.way path with
  | some e =>
    rw [hway] at h
    cases h
  | none =>
    rw [hway] at h
    cases hget : d.get? (Path.components path) with
    | none =>
      rw [hget] at h
      cases h
    | some found =>
      rw [hget] at h
      cases h
      exact ⟨rfl, rfl⟩

theorem resolve_of_way {d : Disk} {path : String} {entry : DiskEntry} (hway : d.way path = none)
    (hget : d.get? (Path.components path) = some entry) : d.resolve path = .ok entry := by
  rw [resolve, hway]
  dsimp only
  rw [hget]

theorem components_ne_nil {d : Disk} {path : String}
    (h : d.get? (Path.components path) ≠ some .directory) : Path.components path ≠ [] := by
  intro hnil
  rw [hnil] at h
  exact h rfl

/-! ## Writing and renaming -/

/-- **Writing puts a file in its place**, which is no directory, or leaves the disk as it is. -/
theorem write_cases (d : Disk) (path : String) (content : List UInt8) :
    (∃ e, d.write path content = (d, .error e)) ∨
      d.way path = none ∧ d.get? (Path.components path) ≠ some .directory ∧
        d.write path content = (d.put (Path.components path) (.file content), .ok ()) := by
  rw [write]
  cases hresolve : d.resolve path with
  | ok entry =>
    obtain ⟨hway, hget⟩ := way_of_resolve hresolve
    cases entry with
    | file old => exact .inr ⟨hway, by simp [hget], rfl⟩
    | directory => exact .inl ⟨_, rfl⟩
  | error e =>
    cases e with
    | missing =>
      cases hway : d.way path with
      | some e => exact .inl ⟨e, rfl⟩
      | none =>
        refine .inr ⟨rfl, ?_, rfl⟩
        intro hdir
        rw [resolve_of_way hway hdir] at hresolve
        cases hresolve
    | occupied | notDirectory | isDirectory | nameTooLong | nulByte | other => exact .inl ⟨_, rfl⟩

/-- A file that could be written is there afterwards. -/
theorem resolve_write {d : Disk} {path : String} {content : List UInt8}
    (h : (d.write path content).2 = .ok ()) :
    (d.write path content).1.resolve path = .ok (.file content) := by
  rcases d.write_cases path content with ⟨e, hwrite⟩ | ⟨hway, hfile, hwrite⟩
  · rw [hwrite] at h
    cases h
  · have hne := components_ne_nil hfile
    rw [hwrite]
    apply resolve_of_way
    · refine way_kept ?_ hway
      intro q hq hdir
      rwa [get?_put_of_ne hq]
    · rw [get?_put hne, if_pos rfl]

/-- **Renaming moves an entry**, in place of what is no directory, or leaves the disk as it is. -/
theorem rename_cases (d : Disk) (source target : String) :
    (∃ e, d.rename source target = (d, .error e)) ∨
      ∃ entry, d.resolve source = .ok entry ∧ d.way target = none ∧
        d.get? (Path.components target) ≠ some .directory ∧
        d.rename source target =
          ((d.erase (Path.components source)).put (Path.components target) entry, .ok ()) := by
  rw [rename]
  cases d.resolve source with
  | error e => exact .inl ⟨e, rfl⟩
  | ok entry =>
    cases d.way target with
    | some e => exact .inl ⟨e, rfl⟩
    | none =>
      dsimp only
      split
      · exact .inl ⟨_, rfl⟩
      · rename_i hfile
        exact .inr ⟨entry, rfl, rfl, hfile, rfl⟩

/-- A file that could be renamed is read under its new name. -/
theorem read_rename {d : Disk} {source target : String} {content : List UInt8}
    (hsource : d.resolve source = .ok (.file content))
    (h : (d.rename source target).2 = .ok ()) :
    (d.rename source target).1.read target = .ok content := by
  obtain ⟨_, hfile⟩ := way_of_resolve hsource
  rcases d.rename_cases source target with ⟨e, hrename⟩ | ⟨entry, hentry, hway, htarget, hrename⟩
  · rw [hrename] at h
    cases h
  · cases hsource.symm.trans hentry
    have hne := components_ne_nil htarget
    have hresolve : ((d.erase (Path.components source)).put (Path.components target)
        (.file content)).resolve target = .ok (.file content) := by
      apply resolve_of_way
      · refine way_kept ?_ hway
        intro q hq hdir
        have hother : q ≠ Path.components source := by
          intro heq
          rw [heq, hfile] at hdir
          cases hdir
        rw [get?_put_of_ne hq, get?_erase hother, hdir]
      · rw [get?_put hne, if_pos rfl]
    rw [hrename, read, hresolve]

end Disk

/-! ## Work in parts -/

namespace Filing

variable {α β : Type}

@[simp] theorem run_perform (d : Disk) (a : FileAct) : run d (perform a) = d.perform a := rfl

theorem run_bind_eq (d : Disk) (work : Filing α) (f : α → Filing β) :
    run d (work >>= f) = run (run d work).1 (f (run d work).2) := by
  show run d (work.bind f) = _
  induction work generalizing d with
  | done a => rfl
  | act a next ih => exact ih _ _

end Filing

namespace Store

variable {α β : Type}

/-- **Work that can fail**, carried out one part after the other. -/
theorem run_bind (d : Disk) (work : Storing α) (f : α → Storing β) :
    Filing.run d (work >>= f).run =
      match Filing.run d work.run with
      | (d, .ok a) => Filing.run d (f a).run
      | (d, .error e) => (d, .error e) := by
  show Filing.run d (work.run >>= ExceptT.bindCont f) = _
  rw [Filing.run_bind_eq]
  cases hrun : Filing.run d work.run with
  | mk d result => cases result <;> rfl

/-- Work that succeeded in two parts succeeded in both. -/
theorem ok_of_bind {d d' : Disk} {work : Storing α} {f : α → Storing β} {b : β}
    (h : Filing.run d (work >>= f).run = (d', .ok b)) :
    ∃ d₁ a, Filing.run d work.run = (d₁, .ok a) ∧ Filing.run d₁ (f a).run = (d', .ok b) := by
  rw [run_bind] at h
  cases hrun : Filing.run d work.run with
  | mk d₁ result =>
    rw [hrun] at h
    cases result with
    | ok a => exact ⟨d₁, a, rfl, h⟩
    | error e => cases h

theorem run_perform (d : Disk) (a : FileAct) :
    Filing.run d (perform a).run = ((d.perform a).1, (d.perform a).2.mapError (.io ·.message)) := by
  show Filing.run d (Filing.perform a >>= _) = _
  rw [Filing.run_bind_eq, Filing.run_perform]
  cases (d.perform a).2 <;> rfl

theorem ok_of_perform {d d' : Disk} {a : FileAct} {r : a.Result}
    (h : Filing.run d (perform a).run = (d', .ok r)) : d.perform a = (d', .ok r) := by
  rw [run_perform] at h
  cases hact : d.perform a with
  | mk d₁ result =>
    rw [hact] at h
    cases result with
    | ok =>
      cases h
      rfl
    | error => cases h

/-- **A layout that was saved is in its file.** -/
theorem read_of_saveLayout {store : Store} {d d' : Disk} {layout : Layout} {path : String}
    (h : Filing.run d (store.saveLayout layout).run = (d', .ok path)) :
    store.layoutPath layout = .ok path ∧ d'.read path = .ok (encode layout) := by
  rw [saveLayout] at h
  cases hpath : store.layoutPath layout with
  | error f =>
    rw [hpath] at h
    cases h
  | ok file =>
    rw [hpath] at h
    obtain ⟨d₁, _, _, h⟩ := ok_of_bind h
    obtain ⟨d₂, _, hwrite, h⟩ := ok_of_bind h
    obtain ⟨d₃, _, hrename, h⟩ := ok_of_bind h
    cases h
    have hwrite : d₁.write (draftPath path) (encode layout) = (d₂, .ok ()) := ok_of_perform hwrite
    have hrename : d₂.rename (draftPath path) path = (d', .ok ()) := ok_of_perform hrename
    have hthere : d₂.resolve (draftPath path) = .ok (.file (encode layout)) := by
      have hresolve := Disk.resolve_write (congrArg Prod.snd hwrite)
      rwa [hwrite] at hresolve
    have hread := Disk.read_rename hthere (congrArg Prod.snd hrename)
    rw [hrename] at hread
    exact ⟨rfl, hread⟩

/-! ## Loading -/

/-- The document of a name that is on a disk. -/
def documentOn (d : Disk) (directory : String) (kind : DocumentKind) (name : String)
    (reader : Reader α) : Except Failure α :=
  match documentPath directory kind name with
  | .error f => .error f
  | .ok path =>
    match d.read path with
    | .ok content => decode kind name reader content
    | .error .missing => .error (.notFound kind name)
    | .error e => .error (.io e.message)

/-- **Loading reads the disk** and leaves it as it is. -/
theorem run_loadDocument (d : Disk) (directory : String) (kind : DocumentKind) (name : String)
    (reader : Reader α) :
    Filing.run d (loadDocument directory kind name reader).run =
      (d, documentOn d directory kind name reader) := by
  rw [loadDocument, documentOn]
  cases documentPath directory kind name with
  | error f => rfl
  | ok path =>
    show Filing.run d (Filing.perform (.read path) >>= _) = _
    rw [Filing.run_bind_eq, Filing.run_perform]
    simp only [Disk.perform]
    cases d.read path with
    | ok content => rfl
    | error e => cases e <;> rfl

/-- The file of a layout. -/
def layoutFile (store : Store) (name : String) : String :=
  Path.join store.layouts (name ++ "." ++ extension)

theorem documentPath_layout (store : Store) {name : String} (h : isPlain name = true) :
    documentPath store.layouts .layout name = .ok (store.layoutFile name) :=
  if_pos h

theorem documentPath_not_plain (store : Store) {name : String} (h : ¬isPlain name = true) :
    documentPath store.layouts .layout name = .error (.notFound .layout name) :=
  if_neg h

theorem documentPath_cases (store : Store) (name : String) :
    documentPath store.layouts .layout name = .ok (store.layoutFile name) ∨
      documentPath store.layouts .layout name = .error (.notFound .layout name) := by
  by_cases h : isPlain name = true
  · exact .inl (store.documentPath_layout h)
  · exact .inr (store.documentPath_not_plain h)

/-- The layout of a name that is on a disk: it goes by its own name if it has one. -/
def layoutOn (store : Store) (d : Disk) (name : String) : Except Failure Layout :=
  (documentOn d store.layouts .layout name Layout.reader).map fun layout =>
    { layout with
      name := if layout.name.isEmpty then name else layout.name
      source := some (store.layoutFile name) }

theorem run_loadLayout (store : Store) (d : Disk) (name : String) :
    Filing.run d (store.loadLayout name).run = (d, store.layoutOn d name) := by
  rw [loadLayout, run_bind, run_loadDocument, layoutOn]
  cases documentOn d store.layouts .layout name Layout.reader with
  | error f => rfl
  | ok layout =>
    show Filing.run d
      (pure (if layout.name.isEmpty then _ else _ : Layout) : Storing Layout).run = _
    by_cases h : layout.name.isEmpty
    · rw [if_pos h, Except.map, if_pos h]
      rfl
    · rw [if_neg h, Except.map, if_neg h]
      rfl

/-- A layout that was loaded remembers its file. -/
theorem source_of_layoutOn {store : Store} {d : Disk} {name : String} {layout : Layout}
    (h : store.layoutOn d name = .ok layout) : layout.source = some (store.layoutFile name) := by
  rw [layoutOn] at h
  cases hdocument : documentOn d store.layouts .layout name Layout.reader with
  | error f =>
    rw [hdocument] at h
    cases h
  | ok found =>
    rw [hdocument] at h
    cases h
    rfl

end Store
end Stylus
