import Stylus.Proofs.Store.Mishaps

/-!
# Disks on which everything lies in a directory

Whether a file can be read or written depends on the way to it, and so on the directories.  On a
disk on which every entry lies in a directory the way is open wherever there is something, so that
what is read depends on what is there alone.

* `Disk.Rooted` — every entry lies in a directory;
* `Rooted.put`, `Rooted.makeDirectory`, `Rooted.write`, `Rooted.rename` — what keeps a disk like
  that;
* `Rooted.toOption_read` — **what is read of a path is what is there**;
* `write_of_way`, `rename_of_way`, `get?_of_makeFrom` — what is done where nothing stands in the
  way.
-/

set_option autoImplicit false

namespace Stylus
namespace Disk

/-- Every entry lies in a directory. -/
def Rooted (d : Disk) : Prop :=
  ∀ path name, d.get? (path ++ [name]) ≠ none → d.get? path = some .directory

/-! ## What keeps a disk rooted -/

variable {d : Disk}

/-- The way to a path leads through the directory that it lies in. -/
theorem directory_of_wayFrom {names before : List String} {name : String}
    (h : d.wayFrom before (names ++ [name]) = none) :
    d.get? (before ++ names) = some .directory := by
  induction names generalizing before with
  | nil =>
    rw [List.nil_append, wayFrom] at h
    rw [List.append_nil]
    split at h
    · cases h
    · cases h
    · assumption
  | cons first rest ih =>
    rw [List.cons_append, wayFrom] at h
    have hrest : d.wayFrom (before ++ [first]) (rest ++ [name]) = none := by
      split at h
      · cases h
      · cases h
      · by_cases hlong : nameLimit < first.utf8ByteSize
        · rw [if_pos hlong] at h
          cases h
        · rwa [if_neg hlong] at h
    simpa using ih hrest

theorem wayFrom_of_way {path : String} (h : d.way path = none) :
    d.wayFrom [] (Path.components path) = none := by
  rw [way] at h
  split at h
  · cases h
  · split at h
    · cases h
    · exact h

/-- An open way to what is no directory leads through the directory that it lies in. -/
theorem directory_of_way {path : String} (hway : d.way path = none)
    (hfile : d.get? (Path.components path) ≠ some .directory) :
    ∃ parent name, Path.components path = parent ++ [name] ∧ d.get? parent = some .directory := by
  rcases List.eq_nil_or_concat (Path.components path) with hnil | ⟨parent, name, hpath⟩
  · exact absurd hnil (components_ne_nil hfile)
  · rw [List.concat_eq_append] at hpath
    refine ⟨parent, name, hpath, ?_⟩
    have hfrom := wayFrom_of_way hway
    rw [hpath] at hfrom
    exact directory_of_wayFrom hfrom

theorem Rooted.put (h : d.Rooted) {parent : List String} {name : String}
    (hparent : d.get? parent = some .directory)
    (hfile : d.get? (parent ++ [name]) ≠ some .directory) (entry : DiskEntry) :
    (d.put (parent ++ [name]) entry).Rooted := by
  intro path other hthere
  by_cases hsame : path ++ [other] = parent ++ [name]
  · obtain ⟨rfl, -⟩ := List.append_singleton_inj.1 hsame
    rwa [get?_put_of_ne (by simp)]
  · rw [get?_put_of_ne hsame] at hthere
    have hdirectory := h path other hthere
    rwa [get?_put_of_ne]
    rintro rfl
    exact hfile hdirectory

/-- A disk is rooted if every entry that is listed lies in a directory. -/
theorem rooted_of_entries (h : ∀ e ∈ d.entries, d.get? e.1.dropLast = some .directory) :
    d.Rooted := by
  intro path name hthere
  have hne : path ++ [name] ≠ [] := by simp
  rw [get?_of_ne_nil hne, ne_eq, Option.map_eq_none_iff, ← ne_eq, Option.ne_none_iff_exists']
    at hthere
  obtain ⟨e, he⟩ := hthere
  have hpath : e.1 = path ++ [name] := by simpa using List.find?_some he
  have hdirectory := h e (List.mem_of_find?_eq_some he)
  rwa [hpath, List.dropLast_concat] at hdirectory

theorem get?_erase_self (d : Disk) {path : List String} (h : path ≠ []) :
    (d.erase path).get? path = none := by
  rw [get?_of_ne_nil h, Option.map_eq_none_iff, erase, List.find?_eq_none]
  intro e he
  simpa using (List.mem_filter.1 he).2

theorem Rooted.erase (h : d.Rooted) {path : List String}
    (hfile : d.get? path ≠ some .directory) : (d.erase path).Rooted := by
  intro parent name hthere
  by_cases hsame : parent ++ [name] = path
  · rw [hsame, get?_erase_self d (by simp [← hsame])] at hthere
    exact absurd rfl hthere
  · rw [get?_erase hsame] at hthere
    have hdirectory := h parent name hthere
    rwa [get?_erase]
    rintro rfl
    exact hfile hdirectory

theorem Rooted.makeFrom (h : d.Rooted) {before : List String} (names : List String)
    (hbefore : d.get? before = some .directory) : (d.makeFrom before names).1.Rooted := by
  induction names generalizing d before with
  | nil => exact h
  | cons name rest ih =>
    rw [Disk.makeFrom]
    split
    · exact h
    · split
      · exact ih h (by assumption)
      · exact h
      · rename_i hnone
        refine ih (h.put hbefore (by simp [hnone]) .directory) ?_
        rw [get?_put (by simp), if_pos rfl]

theorem Rooted.makeDirectory (h : d.Rooted) (path : String) : (d.makeDirectory path).1.Rooted := by
  rw [Disk.makeDirectory]
  split
  · exact h
  · exact h.makeFrom _ rfl

theorem Rooted.write (h : d.Rooted) (path : String) (content : List UInt8) :
    (d.write path content).1.Rooted := by
  rcases d.write_cases path content with ⟨e, hwrite⟩ | ⟨hway, hfile, hwrite⟩
  · rwa [hwrite]
  · obtain ⟨parent, name, hpath, hparent⟩ := directory_of_way hway hfile
    rw [hwrite, hpath]
    exact h.put hparent (hpath ▸ hfile) _

/-- A file is given another name. -/
theorem Rooted.rename (h : d.Rooted) {source : String} (target : String)
    (hsource : d.get? (Path.components source) ≠ some .directory) :
    (d.rename source target).1.Rooted := by
  rcases d.rename_cases source target with ⟨e, hrename⟩ | ⟨entry, -, hway, hfile, hrename⟩
  · rwa [hrename]
  · obtain ⟨parent, name, hpath, hparent⟩ := directory_of_way hway hfile
    rw [hrename, hpath]
    refine (h.erase hsource).put ?_ ?_ entry
    · rwa [get?_erase]
      rintro rfl
      exact hsource hparent
    · rw [hpath] at hfile
      by_cases hsame : parent ++ [name] = Path.components source
      · rw [hsame, get?_erase_self d (by simp [← hsame])]
        exact nofun
      · rwa [get?_erase hsame]

/-! ## Reading -/

/-- The text of a path that can lead somewhere: it and the names in it are not too long. -/
def passable (path : String) : Bool :=
  !path.toList.contains '\x00' && decide (path.utf8ByteSize ≤ pathLimit)
    && (Path.components path).all (·.utf8ByteSize ≤ nameLimit)

/-- What something lies in, however deep, is a directory. -/
theorem Rooted.directory (h : d.Rooted) {before rest : List String} {name : String}
    (hthere : d.get? (before ++ name :: rest) ≠ none) : d.get? before = some .directory := by
  induction rest generalizing before name with
  | nil => exact h before name hthere
  | cons next rest ih =>
    have hinner : d.get? (before ++ [name]) = some .directory := ih (by simpa using hthere)
    exact h before name (by simp [hinner])

/-- A path that lies in a directory can be passed unless a name in it is too long. -/
theorem Rooted.wayFrom (h : d.Rooted) {before names : List String} {name : String}
    (hparent : d.get? (before ++ names) = some .directory) :
    d.wayFrom before (names ++ [name]) = none ↔
      (names ++ [name]).all (·.utf8ByteSize ≤ nameLimit) = true := by
  induction names generalizing before with
  | nil =>
    rw [List.append_nil] at hparent
    rw [List.nil_append, Disk.wayFrom, hparent]
    dsimp only
    by_cases hlong : nameLimit < name.utf8ByteSize
    · rw [if_pos hlong]
      simp [Nat.not_le.2 hlong]
    · rw [if_neg hlong]
      simp [Disk.wayFrom, Nat.le_of_not_lt hlong]
  | cons first rest ih =>
    have hthere : d.get? (before ++ first :: rest) ≠ none := by simp [hparent]
    have hbefore := h.directory hthere
    rw [List.cons_append, Disk.wayFrom, hbefore, List.all_cons]
    dsimp only
    by_cases hlong : nameLimit < first.utf8ByteSize
    · rw [if_pos hlong]
      simp [Nat.not_le.2 hlong]
    · rw [if_neg hlong, ih (by simpa using hparent)]
      simp [Nat.le_of_not_lt hlong]

theorem Rooted.way (h : d.Rooted) {path name : String} {parent : List String}
    (hpath : Path.components path = parent ++ [name])
    (hparent : d.get? parent = some .directory) :
    d.way path = none ↔ passable path = true := by
  rw [Disk.way, passable]
  by_cases hnul : path.toList.contains '\x00'
  · rw [if_pos hnul, hnul]
    simp
  · rw [if_neg hnul]
    by_cases hlong : pathLimit < path.utf8ByteSize
    · rw [if_pos hlong]
      simp [Nat.not_le.2 hlong]
    · have hway : d.wayFrom [] (parent ++ [name]) = none ↔ _ := h.wayFrom hparent
      rw [if_neg hlong, hpath, hway]
      simp only [Bool.not_eq_true] at hnul
      simp only [hnul, Nat.le_of_not_lt hlong, Bool.not_false, decide_true, Bool.true_and]

/-- **What is read of a path is what is there**, unless the path is too long. -/
theorem Rooted.toOption_read (h : d.Rooted) {path name : String} {parent : List String}
    (hpath : Path.components path = parent ++ [name]) :
    (d.read path).toOption =
      if passable path then d.content? (Path.components path) else none := by
  by_cases hthere : d.get? (Path.components path) = none
  · have hcontent : d.content? (Path.components path) = none := by rw [content?, hthere]
    rw [hcontent, ite_self, read, resolve, hthere]
    cases d.way path <;> rfl
  · have hopen := h.way hpath (h parent name (hpath ▸ hthere))
    rw [read, resolve, content?]
    cases hway : d.way path with
    | some e =>
      have hshut : ¬passable path = true := by
        rw [← hopen, hway]
        intro hnone
        cases hnone
      rw [if_neg hshut]
      rfl
    | none =>
      rw [if_pos (hopen.1 hway)]
      cases d.get? (Path.components path) with
      | none => rfl
      | some entry => cases entry <;> rfl

/-! ## Where nothing stands in the way -/

theorem write_of_way {path : String} (hway : d.way path = none)
    (hfile : d.get? (Path.components path) ≠ some .directory) (content : List UInt8) :
    d.write path content = (d.put (Path.components path) (.file content), .ok ()) := by
  rw [write, resolve, hway]
  dsimp only
  cases hget : d.get? (Path.components path) with
  | none => rfl
  | some entry =>
    cases entry with
    | file old => rfl
    | directory => exact absurd hget hfile

theorem rename_of_way {source target : String} {entry : DiskEntry}
    (hsource : d.resolve source = .ok entry) (hway : d.way target = none)
    (hfile : d.get? (Path.components target) ≠ some .directory) :
    d.rename source target =
      ((d.erase (Path.components source)).put (Path.components target) entry, .ok ()) := by
  rw [rename, hsource, hway]
  dsimp only
  split
  · rename_i hdirectory
    exact absurd hdirectory hfile
  · rfl

/-- Directories that were made are there. -/
theorem get?_of_makeFrom {before names : List String} (hbefore : d.get? before = some .directory)
    (h : (d.makeFrom before names).2 = .ok ()) :
    (d.makeFrom before names).1.get? (before ++ names) = some .directory := by
  induction names generalizing d before with
  | nil => rwa [List.append_nil]
  | cons name rest ih =>
    rw [makeFrom] at h ⊢
    by_cases hlong : nameLimit < name.utf8ByteSize
    · rw [if_pos hlong] at h
      cases h
    · rw [if_neg hlong] at h ⊢
      rw [show before ++ name :: rest = before ++ [name] ++ rest from List.append_cons ..]
      cases hget : d.get? (before ++ [name]) with
      | none =>
        rw [hget] at h
        exact ih (by rw [get?_put (by simp), if_pos rfl]) h
      | some entry =>
        rw [hget] at h
        cases entry with
        | directory => exact ih hget h
        | file content => cases h

/-- Where directories can be made, the way is open, or something is missing on it. -/
theorem wayFrom_of_makeFrom {before names : List String} {name : String}
    (hbefore : d.get? before = some .directory) (h : (d.makeFrom before names).2 = .ok ())
    (hshort : name.utf8ByteSize ≤ nameLimit) :
    d.wayFrom before (names ++ [name]) = none ∨
      d.wayFrom before (names ++ [name]) = some .missing := by
  induction names generalizing before with
  | nil =>
    rw [List.nil_append, wayFrom, hbefore]
    dsimp only
    rw [if_neg (Nat.not_lt.2 hshort)]
    exact .inl rfl
  | cons first rest ih =>
    rw [makeFrom] at h
    rw [List.cons_append, wayFrom, hbefore]
    dsimp only
    by_cases hlong : nameLimit < first.utf8ByteSize
    · rw [if_pos hlong] at h
      cases h
    · rw [if_neg hlong] at h ⊢
      cases hget : d.get? (before ++ [first]) with
      | none =>
        have hmissing : ∀ names, names ≠ [] →
          d.wayFrom (before ++ [first]) names = some .missing := by
          intro names hnames
          cases names with
          | nil => exact absurd rfl hnames
          | cons => rw [wayFrom, hget]
        exact .inr (hmissing _ (by simp))
      | some entry =>
        rw [hget] at h
        cases entry with
        | directory => exact ih hget h
        | file content => cases h

/-- Making directories changes nothing that is deeper. -/
theorem get?_makeFrom_of_deeper {before names q : List String}
    (h : before.length + names.length < q.length) :
    (d.makeFrom before names).1.get? q = d.get? q := by
  induction names generalizing d before with
  | nil => rfl
  | cons name rest ih =>
    have hrest : (before ++ [name]).length + rest.length < q.length := by
      simp only [List.length_append, List.length_cons, List.length_nil] at h ⊢
      omega
    rw [makeFrom]
    split
    · rfl
    · split
      · exact ih hrest
      · rfl
      · have hne : q ≠ before ++ [name] := by
          rintro rfl
          omega
        rw [ih hrest, get?_put_of_ne hne]

/-- Directories that are there need not be made. -/
theorem Rooted.makeFrom_eq (h : d.Rooted) {before names : List String}
    (hthere : d.get? (before ++ names) = some .directory)
    (hshort : names.all (·.utf8ByteSize ≤ nameLimit) = true) :
    d.makeFrom before names = (d, .ok ()) := by
  induction names generalizing before with
  | nil => rfl
  | cons name rest ih =>
    rw [List.all_cons, Bool.and_eq_true, decide_eq_true_eq] at hshort
    rw [List.append_cons] at hthere
    have hinner : d.get? (before ++ [name]) = some .directory := by
      cases rest with
      | nil => rwa [List.append_nil] at hthere
      | cons next rest => exact h.directory (by rw [hthere]; exact nofun)
    rw [Disk.makeFrom, if_neg (Nat.not_lt.2 hshort.1), hinner]
    exact ih hthere hshort.2

end Disk

end Stylus
