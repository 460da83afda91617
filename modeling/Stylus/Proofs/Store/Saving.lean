import Stylus.Proofs.Store.Rooted

/-!
# Saving a layout

Saving makes a directory, writes a draft and renames it.  This file says all that this does to the
disk: it fails and keeps all documents, or it changes one of them; and it does not fail where
nothing stands in the way.

* `components_layoutFile` — where the file of a layout is;
* `saveLayout_cases` — saving, step by step;
* `saves_of_saveLayout` — **saving changes one document at most**;
* `Ready` — nothing stands in the way of a layout;
* `saveLayout_of_ready` — **then it is saved**, and nothing stands in the way of others either.
-/

set_option autoImplicit false

namespace Stylus
namespace Store

variable {store : Store} {d d' : Disk} {layout : Layout} {name : String}

/-! ## Files and names -/

theorem isName_document (h : isPlain name = true) : Path.IsName (name ++ "." ++ extension) := by
  have hchars : (name ++ "." ++ extension).toList = name.toList ++ ".json".toList := by
    rw [String.toList_append, String.toList_append, List.append_assoc]
    rfl
  simp only [isPlain, Bool.and_eq_true, Bool.not_eq_true', List.contains_eq_mem,
    decide_eq_false_iff_not] at h
  refine ⟨?_, ?_⟩
  · have hlong : (name.toList ++ ".json".toList).length ≠ ['.'].length := by simp
    have hne : name.toList ++ ".json".toList ≠ ['.'] := fun heq => hlong (congrArg _ heq)
    rw [hchars, Path.isIdle, decide_eq_false hne, Bool.or_false]
    simp
  · rw [hchars, List.mem_append]
    rintro (hname | hextension)
    · exact h.1.1.2 hname
    · exact absurd hextension (by decide)

theorem components_layoutFile (store : Store) (h : isPlain name = true) :
    Path.components (store.layoutFile name) =
      Path.components store.layouts ++ [name ++ "." ++ extension] := by
  rw [layoutFile, Path.components_join, Path.components_name (isName_document h)]

/-- Layouts of different names are in different files. -/
theorem components_layoutFile_inj {other : String} (h : isPlain name = true)
    (hother : isPlain other = true)
    (hsame : Path.components (store.layoutFile name) = Path.components (store.layoutFile other)) :
    name = other := by
  rw [components_layoutFile store h, components_layoutFile store hother, List.append_cancel_left_eq,
    List.singleton_inj] at hsame
  simpa [← String.toList_inj] using hsame

theorem isDocument_layoutFile (store : Store) (h : isPlain name = true) :
    IsDocument (Path.components (store.layoutFile name)) := by
  refine ⟨name ++ "." ++ extension, ?_, ?_⟩
  · rw [components_layoutFile store h, List.getLast?_concat]
  · rw [String.append_assoc, String.toList_append (s := name)]
    exact List.suffix_append _ _

/-- Where the draft of a layout is. -/
theorem components_draft (store : Store) (h : isPlain name = true) :
    ∃ draft, Path.components (draftPath (store.layoutFile name)) =
      Path.components store.layouts ++ [draft] := by
  have hlast : (Path.components (store.layoutFile name)).getLast? =
      some (name ++ "." ++ extension) := by
    rw [components_layoutFile store h, List.getLast?_concat]
  refine ⟨Path.stem (name ++ "." ++ extension) ++ "." ++ "json.tmp", ?_⟩
  rw [draftPath, Path.components_withExtension hlast isName_draft, components_layoutFile store h,
    List.dropLast_concat]

/-! ## What saving does -/

/-- Work that begins with a single act. -/
theorem run_perform_bind {α : Type} (d : Disk) (a : FileAct) (f : a.Result → Storing α) :
    Filing.run d (perform a >>= f).run =
      match d.perform a with
      | (d, .ok r) => Filing.run d (f r).run
      | (d, .error e) => (d, .error (.io e.message)) := by
  rw [run_bind, run_perform]
  cases hact : d.perform a with
  | mk d' result => cases result <;> rfl

/-- **Saving, step by step**: it fails before anything was renamed, or all went well. -/
theorem saveLayout_cases {result : Except Failure String}
    (h : Filing.run d (store.saveLayout layout).run = (d', result)) :
    (∃ f, result = .error f ∧ (d' = d ∨ ∃ path, d' = (d.makeDirectory (Path.parent path)).1 ∨
        d' = ((d.makeDirectory (Path.parent path)).1.write (draftPath path) (encode layout)).1)) ∨
      ∃ path d₁ d₂, store.layoutPath layout = .ok path ∧ result = .ok path ∧
        d.makeDirectory (Path.parent path) = (d₁, .ok ()) ∧
        d₁.write (draftPath path) (encode layout) = (d₂, .ok ()) ∧
        d₂.rename (draftPath path) path = (d', .ok ()) := by
  rw [saveLayout] at h
  split at h
  · cases h
    exact .inl ⟨_, rfl, .inl rfl⟩
  · rename_i path hpath
    rw [run_perform_bind] at h
    split at h
    · rename_i d₁ _ hmake
      rw [run_perform_bind] at h
      split at h
      · rename_i d₂ _ hwrite
        rw [run_perform_bind] at h
        split at h
        · rename_i d₃ _ hrename
          cases h
          exact .inr ⟨path, d₁, d₂, hpath, rfl, hmake, hwrite, hrename⟩
        · rename_i d₃ e hrename
          cases h
          have hmade : d₁ = (d.makeDirectory (Path.parent path)).1 := (congrArg Prod.fst hmake).symm
          have hwritten : d₂ = (d₁.write (draftPath path) (encode layout)).1 :=
            (congrArg Prod.fst hwrite).symm
          refine .inl ⟨_, rfl, .inr ⟨path, .inr ?_⟩⟩
          rw [Disk.rename_of_error hrename, hwritten, hmade]
      · rename_i d₂ e hwrite
        cases h
        have hmade : d₁ = (d.makeDirectory (Path.parent path)).1 := (congrArg Prod.fst hmake).symm
        refine .inl ⟨_, rfl, .inr ⟨path, .inr ?_⟩⟩
        rw [← hmade]
        exact (congrArg Prod.fst hwrite).symm
    · rename_i d₁ e hmake
      cases h
      exact .inl ⟨_, rfl, .inr ⟨path, .inl (congrArg Prod.fst hmake).symm⟩⟩

/-- A layout is saved if each step goes well. -/
theorem run_saveLayout {path : String} {d₁ d₂ : Disk} (hpath : store.layoutPath layout = .ok path)
    (hmake : d.makeDirectory (Path.parent path) = (d₁, .ok ()))
    (hwrite : d₁.write (draftPath path) (encode layout) = (d₂, .ok ()))
    (hrename : d₂.rename (draftPath path) path = (d', .ok ())) :
    Filing.run d (store.saveLayout layout).run = (d', .ok path) := by
  rw [saveLayout, hpath]
  dsimp only
  rw [run_perform_bind, Disk.perform, hmake]
  dsimp only
  rw [run_perform_bind, Disk.perform, hwrite]
  dsimp only
  rw [run_perform_bind, Disk.perform, hrename]
  rfl

/-- **What becomes of the documents** when one of them is written: that went well, and it is there
and all others are as they were; or it did not, and all are. -/
structure Saves (d d' : Disk) (path : String) (content : List UInt8) (went : Bool) : Prop where
  rooted : d'.Rooted
  failed : went = false → KeepsDocuments d d'
  written : went = true → d'.read path = .ok content
  others : ∀ q, IsDocument q → q ≠ Path.components path → d'.content? q = d.content? q

theorem Saves.of_keeps (hrooted : d'.Rooted) (h : KeepsDocuments d d') (path : String)
    (content : List UInt8) : Saves d d' path content false :=
  ⟨hrooted, fun _ => h, nofun, fun q hq _ => h q hq⟩

/-- **Saving changes one document at most.** -/
theorem saves_of_saveLayout {path : String} {result : Except Failure String} (hrooted : d.Rooted)
    (hpath : store.layoutPath layout = .ok path)
    (h : Filing.run d (store.saveLayout layout).run = (d', result)) :
    Saves d d' path (encode layout) result.isOk := by
  rcases saveLayout_cases h with ⟨f, rfl, hd'⟩ | ⟨file, d₁, d₂, hfile, rfl, hmake, hwrite, hrename⟩
  · rcases hd' with rfl | ⟨file, rfl | rfl⟩
    · exact .of_keeps hrooted .rfl _ _
    · exact .of_keeps (hrooted.makeDirectory _) (keepsDocuments_makeDirectory d _) _ _
    · exact .of_keeps ((hrooted.makeDirectory _).write _ _)
        ((keepsDocuments_makeDirectory d _).trans (keepsDocuments_draft _ file _)) _ _
  · cases hpath.symm.trans hfile
    have hrooted₂ : d₂.Rooted := by
      have hwritten := (hrooted.makeDirectory (Path.parent path)).write (draftPath path)
        (encode layout)
      rwa [hmake, hwrite] at hwritten
    have hkept : KeepsDocuments d d₂ := by
      have hwritten := (keepsDocuments_makeDirectory d (Path.parent path)).trans
        (keepsDocuments_draft _ path (encode layout))
      rwa [hmake, hwrite] at hwritten
    have hdraft : d₂.get? (Path.components (draftPath path)) = some (.file (encode layout)) := by
      have hresolve := Disk.resolve_write (congrArg Prod.snd hwrite)
      rw [hwrite] at hresolve
      exact (Disk.way_of_resolve hresolve).2
    refine ⟨?_, nofun, fun _ => (read_of_saveLayout h).2, ?_⟩
    · have hplain : d₂.get? (Path.components (draftPath path)) ≠ some .directory := by
        simp [hdraft]
      have hrenamed := hrooted₂.rename path hplain
      rwa [hrename] at hrenamed
    · intro q hq hother
      rcases d₂.rename_cases (draftPath path) path with ⟨e, herror⟩ | ⟨entry, -, -, -, hdone⟩
      · cases hrename.symm.trans herror
      · cases hrename.symm.trans hdone
        have hsource : q ≠ Path.components (draftPath path) := by
          rintro rfl
          exact not_isDocument_draft path hq
        rw [Disk.content?_put_of_ne hother, Disk.content?, Disk.get?_erase hsource]
        exact hkept q hq

/-! ## Where nothing stands in the way -/

/-- **Nothing stands in the way of a layout** of that name: its directory is there or can be made,
no directory is in its place or in that of its draft, and their paths are not too long. -/
structure Ready (store : Store) (d : Disk) (name : String) : Prop where
  makes : (d.makeDirectory (Path.parent (store.layoutFile name))).2 = .ok ()
  file : d.get? (Path.components (store.layoutFile name)) ≠ some .directory
  draft : d.get? (Path.components (draftPath (store.layoutFile name))) ≠ some .directory
  passable : Disk.passable (store.layoutFile name) = true ∧
    Disk.passable (draftPath (store.layoutFile name)) = true

theorem components_parent_layoutFile (store : Store) (h : isPlain name = true) :
    Path.components (Path.parent (store.layoutFile name)) = Path.components store.layouts := by
  rw [Path.components_parent, components_layoutFile store h, List.dropLast_concat]

/-- What can be made of the directory of layouts. -/
theorem makeDirectory_layouts (h : isPlain name = true)
    (hmakes : (d.makeDirectory (Path.parent (store.layoutFile name))).2 = .ok ()) :
    (Path.parent (store.layoutFile name)).toList.contains '\x00' = false ∧
      d.makeDirectory (Path.parent (store.layoutFile name)) =
        d.makeFrom [] (Path.components store.layouts) := by
  rw [Disk.makeDirectory] at hmakes ⊢
  by_cases hnul : (Path.parent (store.layoutFile name)).toList.contains '\x00' = true
  · rw [if_pos hnul] at hmakes
    cases hmakes
  · rw [if_neg hnul, components_parent_layoutFile store h]
    exact ⟨by simpa using hnul, rfl⟩

/-- The directory of layouts is there, and no directory is new in it. -/
structure Settled (store : Store) (d d' : Disk) : Prop where
  directory : d'.get? (Path.components store.layouts) = some .directory
  inside : ∀ name, d'.get? (Path.components store.layouts ++ [name]) = some .directory →
    d.get? (Path.components store.layouts ++ [name]) = some .directory

namespace Settled

variable {d₁ : Disk}

theorem trans (h : store.Settled d d₁) (h' : store.Settled d₁ d') : store.Settled d d' :=
  ⟨h'.directory, fun name hdirectory => h.inside name (h'.inside name hdirectory)⟩

/-- The directory was made, or was there. -/
theorem of_makeFrom (h : (d.makeFrom [] (Path.components store.layouts)).2 = .ok ()) :
    store.Settled d (d.makeFrom [] (Path.components store.layouts)).1 where
  directory := Disk.get?_of_makeFrom rfl h
  inside name hdirectory := by
    rwa [Disk.get?_makeFrom_of_deeper (by simp)] at hdirectory

/-- A file is written into the directory. -/
theorem of_put (h : d.get? (Path.components store.layouts) = some .directory) (name : String)
    (content : List UInt8) :
    store.Settled d (d.put (Path.components store.layouts ++ [name]) (.file content)) where
  directory := by rwa [Disk.get?_put_of_ne (by simp)]
  inside other hdirectory := by
    rw [Disk.get?_put (by simp)] at hdirectory
    split at hdirectory
    · cases hdirectory
    · exact hdirectory

/-- A file in the directory is gone. -/
theorem of_erase (h : d.get? (Path.components store.layouts) = some .directory) (name : String) :
    store.Settled d (d.erase (Path.components store.layouts ++ [name])) where
  directory := by rwa [Disk.get?_erase (by simp)]
  inside other hdirectory := by
    by_cases hsame : Path.components store.layouts ++ [other] =
        Path.components store.layouts ++ [name]
    · rw [hsame, Disk.get?_erase_self _ (by simp)] at hdirectory
      cases hdirectory
    · rwa [Disk.get?_erase hsame] at hdirectory

end Settled

/-- Nothing stands in the way of others after a layout was saved. -/
theorem Ready.of_settled (hready : store.Ready d name) (hname : isPlain name = true)
    (hrooted : d'.Rooted) (h : store.Settled d d') : store.Ready d' name := by
  obtain ⟨hnul, -⟩ := makeDirectory_layouts hname hready.makes
  have hshort : (Path.components store.layouts).all
      (·.utf8ByteSize ≤ Disk.nameLimit) = true := by
    have hpassable := hready.passable.1
    rw [Disk.passable, Bool.and_eq_true, components_layoutFile store hname, List.all_append,
      Bool.and_eq_true (List.all _ _)] at hpassable
    exact hpassable.2.1
  refine ⟨?_, ?_, ?_, hready.passable⟩
  · rw [Disk.makeDirectory, if_neg (by simpa using hnul), components_parent_layoutFile store hname,
      hrooted.makeFrom_eq h.directory hshort]
  · intro hdirectory
    rw [components_layoutFile store hname] at hdirectory
    apply hready.file
    rw [components_layoutFile store hname]
    exact h.inside _ hdirectory
  · intro hdirectory
    obtain ⟨draft, hdraft⟩ := components_draft store hname
    rw [hdraft] at hdirectory
    apply hready.draft
    rw [hdraft]
    exact h.inside _ hdirectory

/-- **A layout is saved** if nothing stands in its way. -/
theorem saveLayout_of_ready (hrooted : d.Rooted) (hname : isPlain name = true)
    (hready : store.Ready d name) (hpath : store.layoutPath layout = .ok (store.layoutFile name)) :
    ∃ d', Filing.run d (store.saveLayout layout).run = (d', .ok (store.layoutFile name)) ∧
      store.Settled d d' := by
  obtain ⟨-, hmake⟩ := makeDirectory_layouts hname hready.makes
  obtain ⟨draft, hdraft⟩ := components_draft store hname
  have hfile := components_layoutFile store hname
  have hnodraft := hready.draft
  have hnofile := hready.file
  rw [hdraft] at hnodraft
  rw [hfile] at hnofile
  -- the directory is made
  have hmade := hready.makes
  have hrooted₁ := hrooted.makeDirectory (Path.parent (store.layoutFile name))
  rw [hmake] at hmade hrooted₁
  have hsettled₁ := Settled.of_makeFrom hmade
  generalize hd₁ : (d.makeFrom [] (Path.components store.layouts)).1 = d₁ at hrooted₁ hsettled₁
  have hmake₁ : d.makeDirectory (Path.parent (store.layoutFile name)) = (d₁, .ok ()) :=
    hmake.trans (Prod.ext hd₁ hmade)
  -- the draft is written
  have hwrite := Disk.write_of_way
    ((hrooted₁.way hdraft hsettled₁.directory).2 hready.passable.2)
    (fun hdirectory => hnodraft (hsettled₁.inside draft (hdraft ▸ hdirectory))) (encode layout)
  have hresolve := Disk.resolve_write (congrArg Prod.snd hwrite)
  have hrooted₂ := hrooted₁.write (draftPath (store.layoutFile name)) (encode layout)
  rw [hwrite] at hresolve hrooted₂
  rw [hdraft] at hwrite hresolve hrooted₂
  have hsettled₂ := hsettled₁.trans (.of_put hsettled₁.directory draft (encode layout))
  -- and takes the place of the file
  have hrename := Disk.rename_of_way hresolve
    ((hrooted₂.way hfile hsettled₂.directory).2 hready.passable.1)
    (fun hdirectory => hnofile (hsettled₂.inside _ (hfile ▸ hdirectory)))
  rw [hdraft, hfile] at hrename
  have herased := Settled.of_erase hsettled₂.directory draft
  exact ⟨_, run_saveLayout hpath hmake₁ hwrite hrename,
    hsettled₂.trans (herased.trans (.of_put herased.directory _ _))⟩

/-- Where nothing stands in the way of a layout, its file is read, or it is missing. -/
theorem Ready.read (hname : isPlain name = true) (hready : store.Ready d name) :
    (∃ content, d.read (store.layoutFile name) = .ok content ∧
        d.content? (Path.components (store.layoutFile name)) = some content) ∨
      d.read (store.layoutFile name) = .error .missing := by
  obtain ⟨-, hmake⟩ := makeDirectory_layouts hname hready.makes
  have hpassable := hready.passable.1
  rw [Disk.passable, Bool.and_eq_true, Bool.and_eq_true, Bool.not_eq_true', decide_eq_true_eq,
    components_layoutFile store hname, List.all_append, Bool.and_eq_true (List.all _ _)]
    at hpassable
  have hway : d.way (store.layoutFile name) =
      d.wayFrom [] (Path.components store.layouts ++ [name ++ "." ++ extension]) := by
    rw [Disk.way, if_neg (by rw [hpassable.1.1]; exact Bool.false_ne_true),
      if_neg (Nat.not_lt.2 hpassable.1.2), components_layoutFile store hname]
  have hshort : (name ++ "." ++ extension).utf8ByteSize ≤ Disk.nameLimit := by
    simpa only [List.all_cons, List.all_nil, Bool.and_true, decide_eq_true_eq] using hpassable.2.2
  have hmakes := hready.makes
  rw [hmake] at hmakes
  rw [Disk.read, Disk.resolve, hway, Disk.content?]
  have hwayFrom : d.wayFrom [] (Path.components store.layouts ++ [name ++ "." ++ extension]) =
      none ∨ _ := Disk.wayFrom_of_makeFrom rfl hmakes hshort
  rcases hwayFrom with hopen | hmissing
  · rw [hopen]
    dsimp only
    have hfile := hready.file
    cases hget : d.get? (Path.components (store.layoutFile name)) with
    | none => exact .inr rfl
    | some entry =>
      cases entry with
      | file content => exact .inl ⟨content, rfl, rfl⟩
      | directory => exact absurd hget hfile
  · rw [hmissing]
    exact .inr rfl

end Store
end Stylus
