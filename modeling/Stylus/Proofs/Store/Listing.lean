import Stylus.Proofs.Store.Reach

/-!
# What is listed and what is loaded

A listing goes through the files of a directory and takes the names off them; loading puts a file
name together and looks for that.  The two agree on a name that can be one of a document, and they
part where only one of them is particular: a listing takes every file for a document that has the
extension, and loading does not look for a name that could lead out of its directory.

* `documentName?_eq_some` — the name of a document is its file's without the extension;
* `Disk.Proper` — disks as file systems keep them;
* `Store.run_listNames`, `Store.listed_of_open` — what is listed;
* `Store.read_missing` — when there is no file of a name;
* `Store.Agrees`, `Store.listing_agrees` — **where a listing and loading agree**;
* `Store.hidden_listed` — a name that is listed and never loaded.
-/

set_option autoImplicit false

namespace Stylus

/-! ## Disks -/

namespace Disk

variable {d : Disk}

/-- **A disk as file systems keep them**: everything lies in a directory, and each path leads to one
thing. -/
structure Proper (d : Disk) : Prop where
  rooted : d.Rooted
  distinct : (d.entries.map (·.1)).Nodup

/-- There is a directory at a path, or nothing at all. -/
def Open (d : Disk) (directory : String) : Prop :=
  d.resolve directory = .ok .directory ∨ d.resolve directory = .error .missing

theorem wayFrom_append {before names : List String} {e : FileError}
    (h : d.wayFrom before names = some e) (rest : List String) :
    d.wayFrom before (names ++ rest) = some e := by
  induction names generalizing before with
  | nil => cases h
  | cons name names ih =>
    rw [wayFrom] at h
    rw [List.cons_append, wayFrom]
    cases hget : d.get? before with
    | none =>
      rw [hget] at h
      exact h
    | some entry =>
      rw [hget] at h
      cases entry with
      | file => exact h
      | directory =>
        dsimp only at h ⊢
        split
        · rename_i hlong
          rwa [if_pos hlong] at h
        · rename_i hshort
          rw [if_neg hshort] at h
          exact ih h

/-- Behind a path that leads to nothing, something is missing. -/
theorem wayFrom_concat {before names : List String} (h : d.wayFrom before names = none)
    (hget : d.get? (before ++ names) = none) (name : String) :
    d.wayFrom before (names ++ [name]) = some .missing := by
  induction names generalizing before with
  | nil =>
    rw [List.append_nil] at hget
    rw [List.nil_append, wayFrom, hget]
  | cons first names ih =>
    rw [wayFrom] at h
    rw [List.cons_append, wayFrom]
    cases hbefore : d.get? before with
    | none => rfl
    | some entry =>
      rw [hbefore] at h
      cases entry with
      | file => cases h
      | directory =>
        dsimp only at h ⊢
        split
        · rename_i hlong
          rw [if_pos hlong] at h
          cases h
        · rename_i hshort
          rw [if_neg hshort] at h
          exact ih h (by rwa [List.append_assoc])

/-- Nothing is missing on the way to what lies in a directory. -/
theorem Rooted.wayFrom_ne_missing (h : d.Rooted) {before names : List String} {name : String}
    (hparent : d.get? (before ++ names) = some .directory) :
    d.wayFrom before (names ++ [name]) ≠ some .missing := by
  induction names generalizing before with
  | nil =>
    rw [List.append_nil] at hparent
    rw [List.nil_append, Disk.wayFrom, hparent]
    dsimp only
    split <;> rintro ⟨⟩
  | cons first names ih =>
    have hthere : d.get? (before ++ first :: names) ≠ none := by simp [hparent]
    have hbefore := h.directory hthere
    rw [List.cons_append, Disk.wayFrom, hbefore]
    dsimp only
    split
    · rintro ⟨⟩
    · exact ih (by rwa [List.append_assoc])

theorem Rooted.way_ne_missing (h : d.Rooted) {path name : String} {parent : List String}
    (hpath : Path.components path = parent ++ [name]) (hparent : d.get? parent = some .directory) :
    d.way path ≠ some .missing := by
  rw [Disk.way, hpath]
  split
  · rintro ⟨⟩
  · split
    · rintro ⟨⟩
    · exact h.wayFrom_ne_missing hparent

/-- A directory is found, unless its path is too long. -/
theorem Rooted.resolve_ne_missing (h : d.Rooted) {path : String}
    (hget : d.get? (Path.components path) = some .directory) :
    d.resolve path ≠ .error .missing := by
  rw [resolve, hget]
  cases hway : d.way path with
  | none => rintro ⟨⟩
  | some e =>
    rintro ⟨⟩
    rcases List.eq_nil_or_concat (Path.components path) with hnil | ⟨parent, name, hpath⟩
    · rw [Disk.way, hnil, Disk.wayFrom] at hway
      split at hway
      · cases hway
      · split at hway <;> cases hway
    · rw [List.concat_eq_append] at hpath
      have hparent := h parent name (by rw [← hpath, hget]; rintro ⟨⟩)
      exact h.way_ne_missing hpath hparent hway

end Disk

namespace Store

variable {d : Disk} {directory name path : String}

/-! ## What is read -/

/-- **There is no file of a name** in a directory that is there, if nothing is at its path. -/
theorem read_missing (h : d.Rooted) (hdirectory : d.Open directory)
    (hinside : Path.Inside directory name path) (hpassable : Disk.passable path = true)
    (hnothing : d.get? (Path.components path) = none) : d.read path = .error .missing := by
  have hpass := hpassable
  simp only [Disk.passable, Bool.and_eq_true, Bool.not_eq_true', decide_eq_true_eq] at hpass
  obtain ⟨⟨hnul, hlong⟩, -⟩ := hpass
  have hway : d.way path = d.wayFrom [] (Path.components directory ++ [name]) := by
    rw [Disk.way, if_neg (by simpa using hnul), if_neg (Nat.not_lt.2 hlong), hinside.leads]
  rw [Disk.read, Disk.resolve]
  rcases hdirectory with hthere | hmissing
  · obtain ⟨-, hparent⟩ := Disk.way_of_resolve hthere
    rw [(h.way hinside.leads hparent).2 hpassable, hnothing]
  · suffices hstop : d.way path = some .missing by rw [hstop]
    rw [hway]
    rw [Disk.resolve] at hmissing
    cases hopen : d.way directory with
    | some e =>
      rw [hopen] at hmissing
      cases hmissing
      rw [Disk.way] at hopen
      split at hopen
      · cases hopen
      · split at hopen
        · cases hopen
        · exact Disk.wayFrom_append hopen [name]
    | none =>
      rw [hopen] at hmissing
      refine Disk.wayFrom_concat (Disk.wayFrom_of_way hopen) ?_ name
      rw [List.nil_append]
      cases hget : d.get? (Path.components directory) with
      | none => rfl
      | some entry =>
        rw [hget] at hmissing
        cases hmissing

/-- Where something is, no file is missing. -/
theorem read_ne_missing (h : d.Rooted) (hinside : Path.Inside directory name path)
    (hthere : d.get? (Path.components path) ≠ none) : d.read path ≠ .error .missing := by
  have hparent : d.get? (Path.components directory) = some .directory :=
    h _ name (hinside.leads ▸ hthere)
  rw [Disk.read, Disk.resolve]
  cases hway : d.way path with
  | some e =>
    intro hread
    cases hread
    exact h.way_ne_missing hinside.leads hparent hway
  | none =>
    dsimp only
    cases hget : d.get? (Path.components path) with
    | none => exact absurd hget hthere
    | some entry => cases entry <;> rintro ⟨⟩

/-! ## What is listed -/

/-- The name of a document is its file's without the extension. -/
theorem documentName?_eq_some {file : String} :
    documentName? file = some name ↔ file = fileName name ∧ name ≠ "" := by
  constructor
  · intro h
    rw [documentName?] at h
    split at h
    · rename_i hextension
      obtain ⟨hfile, hstem⟩ := Path.eq_of_extension? hextension
      cases h
      exact ⟨hfile, hstem⟩
    · cases h
  · rintro ⟨rfl, hname⟩
    rw [documentName?, fileName, Path.extension?_extended hname (by decide), if_pos rfl,
      Path.stem_extended hname (by decide)]

theorem nameIn?_eq_some {parent entry : List String} :
    Disk.nameIn? parent entry = some name ↔ entry = parent ++ [name] := by
  rw [Disk.nameIn?]
  constructor
  · intro h
    split at h
    · rename_i hparent
      obtain ⟨before, rfl⟩ := List.getLast?_eq_some_iff.1 h
      rw [← hparent, List.dropLast_concat]
    · cases h
  · rintro rfl
    rw [List.dropLast_concat, if_pos rfl, List.getLast?_concat]

/-- The names of the documents among files, in order. -/
def namesOf (files : List String) : List String :=
  (files.filterMap documentName?).mergeSort fun a b => decide (a ≤ b)

/-- What is listed of a directory that is on a disk. -/
def listOn (d : Disk) (directory : String) : Except Failure (List String) :=
  match d.list directory with
  | .ok files => .ok (namesOf files)
  | .error .missing => .ok []
  | .error e => .error (.io e.message)

/-- **Listing reads the disk** and leaves it as it is. -/
theorem run_listNames (d : Disk) (directory : String) :
    Filing.run d (listNames directory).run = (d, listOn d directory) := by
  rw [listNames, listOn]
  show Filing.run d (Filing.perform (.list directory) >>= _) = _
  rw [Filing.run_bind_eq, Filing.run_perform]
  simp only [Disk.perform]
  cases d.list directory with
  | ok files => rfl
  | error e => cases e <;> rfl

/-- Different files have different names, so there are no two alike, and they are in order. -/
theorem pairwise_namesOf {files : List String} (h : files.Nodup) :
    (namesOf files).Pairwise (· < ·) := by
  have hdistinct : (files.filterMap documentName?).Nodup := by
    refine List.Pairwise.filterMap documentName? (fun file other hne name hname name' hname' heq =>
      hne ?_) h
    rw [(documentName?_eq_some.1 hname).1, (documentName?_eq_some.1 hname').1, heq]
  have hnodup : (namesOf files).Nodup := (List.mergeSort_perm _ _).nodup_iff.2 hdistinct
  have hsorted : (namesOf files).Pairwise (· ≤ ·) := by
    have hmerged := @List.pairwise_mergeSort String (fun a b => decide (a ≤ b))
      (fun a b c hab hbc => by
        simpa using String.le_trans (by simpa using hab) (by simpa using hbc))
      (fun a b => by simpa using String.le_total a b) (files.filterMap documentName?)
    exact hmerged.imp fun hle => by simpa using hle
  refine hsorted.imp₂ (fun a b hle hne => ?_) hnodup
  exact String.not_le.1 fun hge => hne (String.le_antisymm hle hge)

/-- **What is listed of a directory**: the names of the files with the extension, each once. -/
theorem listed_of_open (h : d.Proper) (hdirectory : d.Open directory) :
    ∃ names, listOn d directory = .ok names ∧ names.Pairwise (· < ·) ∧
      ∀ name, name ∈ names ↔
        name ≠ "" ∧ d.get? (Path.components directory ++ [fileName name]) ≠ none := by
  rcases hdirectory with hthere | hmissing
  · have hlist : d.list directory =
        .ok (d.entries.filterMap fun e => Disk.nameIn? (Path.components directory) e.1) := by
      rw [Disk.list, hthere]
    refine ⟨_, by rw [listOn, hlist], pairwise_namesOf ?_, fun name => ?_⟩
    · refine (List.pairwise_map.1 h.distinct).filterMap _ ?_
      refine fun e e' hne file hfile file' hfile' heq => hne ?_
      rw [nameIn?_eq_some.1 hfile, nameIn?_eq_some.1 hfile', heq]
    · rw [namesOf, List.mem_mergeSort, List.mem_filterMap]
      have hsome : d.get? (Path.components directory ++ [fileName name]) ≠ none ↔
          ∃ e ∈ d.entries, e.1 = Path.components directory ++ [fileName name] := by
        rw [Disk.get?_of_ne_nil (by simp), ne_eq, Option.map_eq_none_iff, List.find?_eq_none]
        simp
      rw [hsome]
      constructor
      · rintro ⟨file, hmem, hname⟩
        obtain ⟨rfl, hne⟩ := documentName?_eq_some.1 hname
        obtain ⟨e, he, hfile⟩ := List.mem_filterMap.1 hmem
        exact ⟨hne, e, he, nameIn?_eq_some.1 hfile⟩
      · rintro ⟨hne, e, he, hpath⟩
        exact ⟨fileName name, List.mem_filterMap.2 ⟨e, he, nameIn?_eq_some.2 hpath⟩,
          documentName?_eq_some.2 ⟨rfl, hne⟩⟩
  · refine ⟨[], by rw [listOn, Disk.list, hmissing], .nil, fun name => ?_⟩
    refine iff_of_false List.not_mem_nil fun ⟨_, hthere⟩ => ?_
    exact h.rooted.resolve_ne_missing (h.rooted _ _ hthere) hmissing

/-! ## Agreement -/

/-- Loading says that there is no document. -/
def Absent {α : Type} (r : Except Failure α) : Prop :=
  ∃ f, r = .error f ∧ f.isNotFound = true

theorem absent_map {α β : Type} {r : Except Failure α} (f : α → β) :
    Absent (r.map f) ↔ Absent r := by
  cases r with
  | ok a => exact iff_of_false nofun nofun
  | error e =>
    constructor
    · rintro ⟨_, ⟨⟩, hf⟩
      exact ⟨e, rfl, hf⟩
    · rintro ⟨_, ⟨⟩, hf⟩
      exact ⟨e, rfl, hf⟩

/-- **There is no document of a name** that is none, or that no file is called for. -/
theorem absent_documentOn {α : Type} {kind : DocumentKind} {reader : Reader α} :
    Absent (documentOn d directory kind name reader) ↔
      isPlain name = false ∨
        isPlain name = true ∧ d.read (Path.join directory (fileName name)) = .error .missing := by
  rw [documentOn, documentPath]
  by_cases hplain : isPlain name = true
  · rw [if_pos hplain]
    simp only [hplain, Bool.true_eq_false, false_or, true_and]
    rw [fileName]
    cases d.read (Path.join directory (name ++ "." ++ extension)) with
    | ok content =>
      refine iff_of_false ?_ (by rintro ⟨⟩)
      rintro ⟨f, hdecode, hf⟩
      cases hf.symm.trans (isNotFound_decode hdecode)
    | error e =>
      cases e with
      | missing => exact iff_of_true ⟨_, rfl, rfl⟩ rfl
      | occupied | notDirectory | isDirectory | nameTooLong | nulByte | other =>
        refine iff_of_false ?_ (by rintro ⟨⟩)
        rintro ⟨f, hf, hnone⟩
        cases hf
        cases hnone
  · rw [if_neg hplain]
    exact iff_of_true ⟨_, rfl, rfl⟩ (.inl (by simpa using hplain))

/-- **Where a listing and loading agree.** -/
structure Agrees (d : Disk) (directory : String) (names : List String) {α : Type}
    (load : String → Except Failure α) : Prop where
  /-- the list is in order, and no name is in it twice -/
  sorted : names.Pairwise (· < ·)
  /-- what is listed are the names of the files with the extension -/
  listed : ∀ name, name ∈ names ↔
    name ≠ "" ∧ d.get? (Path.components directory ++ [fileName name]) ≠ none
  /-- a name that can be one of a document, of which a path can be made, is listed if and only if
  loading does not say that there is no document -/
  agrees : ∀ name, isPlain name = true →
    Disk.passable (Path.join directory (fileName name)) = true →
      (name ∈ names ↔ ¬Absent (load name))
  /-- if it is listed, loading does not say so whatever its path is -/
  found : ∀ name ∈ names, isPlain name = true → ¬Absent (load name)
  /-- and of a name that can be none, loading always says so, listed or not -/
  refused : ∀ name, isPlain name = false → Absent (load name)

theorem agrees_of_absent {α : Type} {kind : DocumentKind} {reader : Reader α} {β : Type}
    {load : String → Except Failure β} (h : d.Proper) (hdirectory : d.Open directory)
    (hload : ∀ name, Absent (load name) ↔ Absent (documentOn d directory kind name reader)) :
    ∃ names, listOn d directory = .ok names ∧ Agrees d directory names load := by
  obtain ⟨names, hlist, hsorted, hlisted⟩ := listed_of_open h hdirectory
  have inside {name : String} (hplain : isPlain name = true) :
      Path.Inside directory (fileName name) (Path.join directory (fileName name)) :=
    Path.inside_join (isName_document hplain)
  have hfound : ∀ name ∈ names, isPlain name = true → ¬Absent (load name) := by
    intro name hmem hplain habsent
    rw [hload, absent_documentOn, hplain] at habsent
    obtain ⟨-, hmissing⟩ := habsent.resolve_left Bool.noConfusion
    have hthere := ((hlisted name).1 hmem).2
    rw [← (inside hplain).leads] at hthere
    exact read_ne_missing h.rooted (inside hplain) hthere hmissing
  refine ⟨names, hlist, hsorted, hlisted, fun name hplain hpassable => ⟨fun hmem =>
    hfound name hmem hplain, fun hload' => ?_⟩, hfound, fun name hplain => ?_⟩
  · by_contra hmem
    rw [hlisted] at hmem
    apply hload'
    rw [hload, absent_documentOn]
    refine .inr ⟨hplain, read_missing h.rooted hdirectory (inside hplain) hpassable ?_⟩
    rw [(inside hplain).leads]
    by_contra hthere
    exact hmem ⟨ne_empty_of_isPlain hplain, hthere⟩
  · rw [hload, absent_documentOn]
    exact .inl hplain

variable {store : Store}

theorem absent_loadScript :
    Absent (Filing.run d (store.loadScript name).run).2 ↔
      Absent (documentOn d store.scripts .script name Script.reader) := by
  rw [loadScript, run_bind, run_loadDocument]
  cases documentOn d store.scripts .script name Script.reader with
  | ok script => exact iff_of_false nofun nofun
  | error f => exact Iff.rfl

theorem absent_loadLayout :
    Absent (Filing.run d (store.loadLayout name).run).2 ↔
      Absent (documentOn d store.layouts .layout name Layout.reader) := by
  rw [run_loadLayout, layoutOn, absent_map]

/-- **Where listings and loading agree**, for scripts and for layouts. -/
theorem listing_agrees (h : d.Proper) (hscripts : d.Open store.scripts)
    (hlayouts : d.Open store.layouts) :
    (∃ names, Filing.run d store.listScripts.run = (d, .ok names) ∧
        Agrees d store.scripts names fun name => (Filing.run d (store.loadScript name).run).2) ∧
      ∃ names, Filing.run d store.listLayouts.run = (d, .ok names) ∧
        Agrees d store.layouts names fun name => (Filing.run d (store.loadLayout name).run).2 := by
  obtain ⟨scripts, hlistScripts, hagreeScripts⟩ :
      ∃ names, listOn d store.scripts = .ok names ∧
        Agrees d store.scripts names fun name => (Filing.run d (store.loadScript name).run).2 :=
    agrees_of_absent h hscripts fun name => absent_loadScript
  obtain ⟨layouts, hlistLayouts, hagreeLayouts⟩ :
      ∃ names, listOn d store.layouts = .ok names ∧
        Agrees d store.layouts names fun name => (Filing.run d (store.loadLayout name).run).2 :=
    agrees_of_absent h hlayouts fun name => absent_loadLayout
  refine ⟨⟨scripts, ?_, hagreeScripts⟩, layouts, ?_, hagreeLayouts⟩
  · rw [listScripts, run_listNames, hlistScripts]
  · rw [listLayouts, run_listNames, hlistLayouts]

/-- A disk with a script, with a file beside it whose name starts with a dot, and with no
layouts. -/
def withHidden : Disk :=
  { entries := [(["scripts"], .directory),
      (["scripts", ".hidden.json"], .file (Text.Utf8.encode "\x7b\x7d")),
      (["scripts", "a.json"], .file (Text.Utf8.encode "\x7b\x7d"))] }

theorem proper_withHidden : withHidden.Proper := by
  refine ⟨Disk.rooted_of_entries fun e he => ?_, by decide +kernel⟩
  simp only [withHidden, List.mem_cons, List.not_mem_nil, or_false] at he
  rcases he with rfl | rfl | rfl <;> rfl

theorem open_withHidden :
    withHidden.Open "scripts" ∧ withHidden.Open "layouts" :=
  ⟨.inl (by decide +kernel), .inr (by decide +kernel)⟩

/-- The script is listed and found. -/
theorem listing_agrees_withHidden :
    let store : Store := ⟨"scripts", "layouts"⟩
    withHidden.Proper ∧ withHidden.Open store.scripts ∧ withHidden.Open store.layouts ∧
      ∃ names, Filing.run withHidden store.listScripts.run = (withHidden, .ok names) ∧ "a" ∈ names ∧
        ¬Absent (Filing.run withHidden (store.loadScript "a").run).2 := by
  intro store
  obtain ⟨hscripts, hlayouts⟩ := open_withHidden
  obtain ⟨⟨names, hlist, hagrees⟩, -⟩ :=
    @listing_agrees withHidden store proper_withHidden hscripts hlayouts
  have hmem : "a" ∈ names := (hagrees.listed "a").2 ⟨by decide, by decide +kernel⟩
  exact ⟨proper_withHidden, hscripts, hlayouts, names, hlist, hmem,
    hagrees.found "a" hmem (by decide +kernel)⟩

/-- **A name that is listed and never loaded.**  There is a file with the extension, so its name is
listed as one of a script; but loading says that there is no such script. -/
theorem hidden_listed :
    let store : Store := ⟨"scripts", "layouts"⟩
    (∃ names, Filing.run withHidden store.listScripts.run = (withHidden, .ok names) ∧
        ".hidden" ∈ names) ∧
      (Filing.run withHidden (store.loadScript ".hidden").run).2 =
        .error (.notFound .script ".hidden") := by
  intro store
  obtain ⟨names, hlist, -, hlisted⟩ := listed_of_open proper_withHidden open_withHidden.1
  refine ⟨⟨names, ?_, (hlisted _).2 ⟨by decide, by decide +kernel⟩⟩, ?_⟩
  · rw [listScripts, run_listNames, hlist]
  · rfl

end Store
end Stylus
