import Stylus.Index

/-!
# Values by name, one after the other

Entries that are in order already are put into an index as they are, and a function that may fail is
carried out on all values of an index or fails.

* `ofList_entries` — entries in order make up an index;
* `mapM?` — all values of an index changed, if that is possible for each;
* `get?_mapM?` — what is then found under a name;
* `mapM?_eq_self` — an index whose values all stay.
-/

set_option autoImplicit false

namespace Stylus
namespace Index

variable {α β : Type}

/-! ## Entries in order -/

/-- A name after all others goes to the end. -/
theorem insertEntry_of_last {name : String} {value : α} {entries : List (String × α)}
    (h : ∀ e ∈ entries, e.1 < name) :
    insertEntry name value entries = entries ++ [(name, value)] := by
  induction entries with
  | nil => rfl
  | cons e rest ih =>
    have hlt : e.1 < name := h e List.mem_cons_self
    have hne : name ≠ e.1 := by
      rintro rfl
      exact String.lt_irrefl _ hlt
    have hnlt : ¬name < e.1 := fun hgt => String.lt_irrefl _ (String.lt_trans hlt hgt)
    rw [insertEntry, if_neg hne, if_neg hnlt, ih fun e he => h e (List.mem_cons_of_mem _ he),
      List.cons_append]

theorem foldl_insert_entries {entries : List (String × α)} (ix : Index α)
    (h : Ascending (ix.entries ++ entries)) :
    (entries.foldl (fun ix e => ix.insert e.1 e.2) ix).entries = ix.entries ++ entries := by
  induction entries generalizing ix with
  | nil => rw [List.foldl_nil, List.append_nil]
  | cons e rest ih =>
    have hlast : (ix.insert e.1 e.2).entries = ix.entries ++ [e] := by
      apply insertEntry_of_last
      intro other hother
      exact (List.pairwise_append.1 h).2.2 other hother e List.mem_cons_self
    have happend : ix.entries ++ e :: rest = (ix.insert e.1 e.2).entries ++ rest := by
      rw [hlast, List.append_assoc, List.singleton_append]
    rw [List.foldl_cons, ih _ (happend ▸ h), happend]

/-- **Entries in order make up an index** as they are. -/
theorem ofList_entries {entries : List (String × α)} (h : Ascending entries) :
    (ofList entries).entries = entries :=
  foldl_insert_entries empty h

/-! ## All values changed -/

/-- The entries with changed values, if all of them can be changed. -/
def mapEntries? (f : α → Option β) (entries : List (String × α)) : Option (List (String × β)) :=
  entries.mapM fun e => (f e.2).map (e.1, ·)

/-- The index with changed values, if all of them can be changed. -/
def mapM? (f : α → Option β) (ix : Index α) : Option (Index β) :=
  (mapEntries? f ix.entries).map ofList

theorem mapEntries?_cons {f : α → Option β} {e : String × α} {rest : List (String × α)}
    {changed : List (String × β)} (h : mapEntries? f (e :: rest) = some changed) :
    ∃ b more, f e.2 = some b ∧ mapEntries? f rest = some more ∧ changed = (e.1, b) :: more := by
  simp only [mapEntries?, List.mapM_cons, Option.bind_eq_bind, Option.pure_def,
    Option.bind_eq_some_iff, Option.map_eq_some_iff, Option.some.injEq] at h
  obtain ⟨_, ⟨b, hb, rfl⟩, more, hmore, rfl⟩ := h
  exact ⟨b, more, hb, hmore, rfl⟩

/-- The names stay. -/
theorem names_mapEntries? {f : α → Option β} {entries : List (String × α)}
    {changed : List (String × β)} (h : mapEntries? f entries = some changed) :
    changed.map (·.1) = entries.map (·.1) := by
  induction entries generalizing changed with
  | nil =>
    cases h
    rfl
  | cons e rest ih =>
    obtain ⟨b, more, _, hmore, rfl⟩ := mapEntries?_cons h
    rw [List.map_cons, List.map_cons, ih hmore]

theorem find?_mapEntries? {f : α → Option β} {entries : List (String × α)}
    {changed : List (String × β)} (h : mapEntries? f entries = some changed) (name : String) :
    (changed.find? (·.1 = name)).map (·.2) =
      ((entries.find? (·.1 = name)).map (·.2)).bind f := by
  induction entries generalizing changed with
  | nil =>
    cases h
    rfl
  | cons e rest ih =>
    obtain ⟨b, more, hb, hmore, rfl⟩ := mapEntries?_cons h
    by_cases hname : e.1 = name
    · simp [hname, hb]
    · simp [hname, ih hmore]

/-- **What is found under a name** is what was there, changed. -/
theorem get?_mapM? {f : α → Option β} {ix : Index α} {changed : Index β}
    (h : ix.mapM? f = some changed) (name : String) :
    changed.get? name = (ix.get? name).bind f := by
  obtain ⟨entries, hentries, rfl⟩ := Option.map_eq_some_iff.1 h
  have hascending : Ascending entries := by
    have hnames : (entries.map (·.1)).Pairwise (· < ·) := by
      rw [names_mapEntries? hentries, List.pairwise_map]
      exact ix.ascending
    exact List.pairwise_map.1 hnames
  rw [get?, get?, ofList_entries hascending]
  exact find?_mapEntries? hentries name

/-- What could be changed was changed. -/
theorem isSome_of_mapEntries? {f : α → Option β} {entries : List (String × α)}
    {changed : List (String × β)} (h : mapEntries? f entries = some changed) :
    ∀ e ∈ entries, (f e.2).isSome = true := by
  induction entries generalizing changed with
  | nil =>
    intro e he
    cases he
  | cons e rest ih =>
    obtain ⟨b, more, hb, hmore, _⟩ := mapEntries?_cons h
    intro other hother
    rcases List.mem_cons.1 hother with rfl | hother
    · rw [hb]
      rfl
    · exact ih hmore other hother

/-- A value that was there is found changed. -/
theorem get?_mapM?_of_get? {f : α → Option β} {ix : Index α} {changed : Index β}
    (h : ix.mapM? f = some changed) {name : String} {a : α} (ha : ix.get? name = some a) :
    ∃ b, f a = some b ∧ changed.get? name = some b := by
  obtain ⟨entries, hentries, -⟩ := Option.map_eq_some_iff.1 h
  obtain ⟨e, he, rfl⟩ := Option.map_eq_some_iff.1 ha
  obtain ⟨b, hb⟩ := Option.isSome_iff_exists.1
    (isSome_of_mapEntries? hentries e (List.mem_of_find?_eq_some he))
  refine ⟨b, hb, ?_⟩
  rw [get?_mapM? h, ha, Option.bind_some, hb]

/-! ## Values that stay -/

/-- An entry is found under its name. -/
theorem get?_of_mem {ix : Index α} {e : String × α} (h : e ∈ ix.entries) :
    ix.get? e.1 = some e.2 := by
  obtain ⟨before, after, hentries⟩ := List.append_of_mem h
  have hother : ∀ other ∈ before, ¬other.1 = e.1 := by
    have hascending := ix.ascending
    rw [hentries] at hascending
    intro other hother heq
    have hlt := (List.pairwise_append.1 hascending).2.2 other hother e List.mem_cons_self
    rw [heq] at hlt
    exact String.lt_irrefl _ hlt
  rw [get?, hentries, List.find?_append, List.find?_eq_none.2 (by simpa using hother)]
  simp

theorem mapEntries?_eq_self {f : α → Option α} {entries : List (String × α)}
    (h : ∀ e ∈ entries, f e.2 = some e.2) : mapEntries? f entries = some entries := by
  induction entries with
  | nil => rfl
  | cons e rest ih =>
    have hrest := ih fun other hother => h other (List.mem_cons_of_mem _ hother)
    rw [mapEntries?] at hrest ⊢
    rw [List.mapM_cons, h e List.mem_cons_self, hrest]
    rfl

/-- **An index whose values all stay** stays as it is. -/
theorem mapM?_eq_self {f : α → Option α} {ix : Index α}
    (h : ∀ name a, ix.get? name = some a → f a = some a) : ix.mapM? f = some ix := by
  have hentries : mapEntries? f ix.entries = some ix.entries :=
    mapEntries?_eq_self fun e he => h e.1 e.2 (get?_of_mem he)
  have hsame : ofList ix.entries = ix := by
    cases hix : ofList ix.entries with
    | mk entries ascending =>
      have hlist := ofList_entries ix.ascending
      rw [hix] at hlist
      subst hlist
      rfl
  rw [mapM?, hentries, Option.map_some, hsame]

end Index
end Stylus
