/-!
# Values by name

An `Index` holds values under names, each name once, in the order of the names.  The positions of a
layout and the members of a table whose order does not matter are kept this way, so that what is
written depends on what is held and not on how it got there.

* `Index.insert` — puts a value under a name, replacing the one that was there;
* `Index.get?` — the value under a name;
* `get?_insert` — the two fit together.
-/

set_option autoImplicit false

namespace Stylus

/-- Entries in the strict order of their names. -/
def Ascending {α : Type} (entries : List (String × α)) : Prop :=
  entries.Pairwise fun a b => a.1 < b.1

/-- Values under names, in the order of the names. -/
structure Index (α : Type) where
  entries : List (String × α)
  ascending : Ascending entries

namespace Index

variable {α : Type}

/-- No values. -/
def empty : Index α :=
  ⟨[], List.Pairwise.nil⟩

/-- The entries with one more. -/
def insertEntry (name : String) (value : α) : List (String × α) → List (String × α)
  | [] => [(name, value)]
  | (n, v) :: rest =>
    if name = n then (name, value) :: rest
    else if name < n then (name, value) :: (n, v) :: rest
    else (n, v) :: insertEntry name value rest

theorem mem_insertEntry {name : String} {value : α} {entries : List (String × α)}
    {e : String × α} (h : e ∈ insertEntry name value entries) :
    e = (name, value) ∨ e ∈ entries := by
  fun_induction insertEntry name value entries <;> grind

theorem ascending_insertEntry (name : String) (value : α) {entries : List (String × α)}
    (h : Ascending entries) : Ascending (insertEntry name value entries) := by
  fun_induction insertEntry name value entries with
  | case1 => simp [Ascending]
  | case2 v rest =>
    unfold Ascending at h ⊢
    simp only [List.pairwise_cons] at h ⊢
    exact h
  | case3 n v rest _ _ =>
    unfold Ascending at h ⊢
    simp only [List.pairwise_cons] at h ⊢
    refine ⟨?_, h⟩
    intro e he
    rcases List.mem_cons.1 he with rfl | he
    · assumption
    · exact String.lt_trans (by assumption) (h.1 e he)
  | case4 n v rest _ _ ih =>
    unfold Ascending at h ih ⊢
    simp only [List.pairwise_cons] at h ⊢
    refine ⟨?_, ih h.2⟩
    intro e he
    rcases mem_insertEntry he with rfl | he
    · grind
    · exact h.1 e he

/-- Puts a value under a name. -/
def insert (name : String) (value : α) (ix : Index α) : Index α :=
  ⟨insertEntry name value ix.entries, ascending_insertEntry name value ix.ascending⟩

/-- The value under a name. -/
def get? (ix : Index α) (name : String) : Option α :=
  (ix.entries.find? (·.1 = name)).map (·.2)

/-- There is a value under the name. -/
def contains (ix : Index α) (name : String) : Bool :=
  (ix.get? name).isSome

/-- The number of values. -/
def size (ix : Index α) : Nat :=
  ix.entries.length

/-- Values put in one after the other, a later one replacing an earlier one of its name. -/
def ofList (entries : List (String × α)) : Index α :=
  entries.foldl (fun ix e => ix.insert e.1 e.2) empty

theorem find?_insertEntry (name other : String) (value : α) (entries : List (String × α)) :
    ((insertEntry name value entries).find? (·.1 = other)).map (·.2) =
      if other = name then some value else (entries.find? (·.1 = other)).map (·.2) := by
  fun_induction insertEntry name value entries <;> grind

/-- Looking up after putting in. -/
theorem get?_insert (ix : Index α) (name other : String) (value : α) :
    (ix.insert name value).get? other = if other = name then some value else ix.get? other :=
  find?_insertEntry name other value ix.entries

end Index

end Stylus
