import Mathlib.Data.List.Forall2
import Mathlib.Data.List.Nodup
import Mathlib.Data.List.Pairwise
import Stylus.Document.Record
import Stylus.Proofs.Document.Written

/-!
# Reading what was written

A reader is given the tree of a document that was written.  What it makes of a number is the number
that its digits are read as (`Number.reread?`), and a record is read from a table that has its
fields in their order, each given or left out (`Record.Makes`).  Faults say why something cannot be
read; where only the outcome matters they are left out, with `Except.toOption`.

* `Number.reread?` — the number that is read where another was written;
* `toOption_bind`, `toOption_mapM` — readings one after the other, without their faults;
* `bind_eq_ok`, `ofText_eq_ok` — what was read before all of it was read;
* `Record.Makes` — what a record makes of its fields, with a rule for each way of putting records
  together;
* `Record.Makes.reader` — **so is the table read that was written of them**;
* `Record.pair` — a record of two fields.
-/

set_option autoImplicit false

namespace Stylus

/-! ## Numbers -/

/-- The number that is read where a number was written, if there is one. -/
def Number.reread? (x : Float) : Option Float :=
  (Reader.ofText Reader.real (String.ofList (Json.realText x))).toOption

theorem Number.reread?_eq (x : Float) :
    reread? x = (Reader.real .running (.ofNumber (Json.realText x))).toOption := by
  rw [reread?, Reader.ofText, (Lexeme.isLeaf_real x).ofText, Reader.ofDocument]
  cases Reader.real .running (.ofNumber (Json.realText x)) <;> rfl

/-- **Infinities and undefined values are not read back**: what is written for them is no number. -/
theorem Number.reread?_of_not_finite {x : Float} (h : Number.isFinite x = false) :
    reread? x = none := by
  rw [reread?_eq, Lexeme.ofNumber_eq_null h]
  rfl

/-- A finite number can come back as its neighbour, if it has more digits than a number holds. -/
example : Number.reread? (1.1 + 0.3) = some 1.4 ∧ (1.1 + 0.3 : Float) ≠ 1.4 := by decide +kernel

/-! ## Results without their faults -/

section Except

variable {ε α β : Type}

theorem toOption_bind (a : Except ε α) (f : α → Except ε β) :
    (a >>= f).toOption = a.toOption.bind fun a => (f a).toOption := by
  cases a <;> rfl

theorem bind_eq_ok {a : Except ε α} {f : α → Except ε β} {b : β} :
    a >>= f = .ok b ↔ ∃ x, a = .ok x ∧ f x = .ok b := by
  constructor
  · intro h
    cases a with
    | error e => cases h
    | ok x => exact ⟨x, rfl, h⟩
  · rintro ⟨x, rfl, h⟩
    exact h

theorem map_eq_ok {a : Except ε α} {f : α → β} {b : β} :
    a.map f = .ok b ↔ ∃ x, a = .ok x ∧ f x = b := by
  cases a <;> simp [Except.map]

theorem toOption_eq_some {a : Except ε α} {b : α} : a.toOption = some b ↔ a = .ok b := by
  cases a <;> simp [Except.toOption]

theorem toOption_mapM (f : α → Except ε β) (as : List α) :
    (as.mapM f).toOption = as.mapM fun a => (f a).toOption := by
  induction as with
  | nil => rfl
  | cons a rest ih =>
    rw [List.mapM_cons, List.mapM_cons, toOption_bind]
    congr 1
    funext b
    rw [toOption_bind, ih]
    rfl

end Except

namespace Reader

variable {α : Type}

theorem finished_eq_ok {closed : Bool} {a b : α} :
    finished closed a = .ok b ↔ closed = true ∧ a = b := by
  rw [finished]
  cases closed <;> simp [fault]

theorem refine_eq_ok {β : Type} {r : Reader α} {f : α → Except String β} {origin : Origin}
    {node : Node} {b : β} :
    refine r f origin node = .ok b ↔ ∃ a, r origin node = .ok a ∧ f a = .ok b := by
  rw [refine, bind, bind_eq_ok]
  refine exists_congr fun a => and_congr_right fun _ => ?_
  cases f a <;> simp [fault]

/-- A value that may be missing and is there. -/
theorem optional_of_ok {r : Reader α} {origin : Origin} {node : Node} {a : α} (hnull : node ≠ .null)
    (h : r origin node = .ok a) : optional r origin node = .ok (some a) := by
  rw [optional.eq_def]
  split
  · exact absurd rfl hnull
  · rw [h]
    rfl

/-- A text is read as its root is, and nothing follows. -/
theorem ofText_eq_ok {r : Reader α} {text : String} {a : α} :
    r.ofText text = .ok a ↔
      (Document.ofText text).clean = true ∧ r .running (Document.ofText text).root = .ok a := by
  rw [ofText, ofDocument, bind_eq_ok]
  constructor
  · rintro ⟨b, hread, hfinished⟩
    obtain ⟨hclean, rfl⟩ := finished_eq_ok.1 hfinished
    exact ⟨hclean, hread⟩
  · rintro ⟨hclean, hread⟩
    exact ⟨a, hread, finished_eq_ok.2 ⟨hclean, rfl⟩⟩

/-- A document in its compact form is read as its tree is. -/
theorem ofText_compact (r : Reader α) (v : Json) : r.ofText v.compact = r .running v.node := by
  rw [ofText, Json.ofText_compact, ofDocument]
  cases r .running v.node <;> rfl

/-- A document in its pretty form is read as its tree is. -/
theorem ofText_pretty (r : Reader α) (v : Json) :
    r.ofText (v.pretty ++ "\n") = r .running v.node := by
  rw [ofText, Json.ofText_pretty, ofDocument]
  cases r .running v.node <;> rfl

end Reader

/-! ## Records -/

namespace Record

variable {α β : Type}

/-- The members of a table that is to hold the fields; one that is left out is no member. -/
def membersOf (held : List (String × Option Node)) : List (Option String × Node) :=
  held.filterMap fun m => m.2.map fun node => (some m.1, node)

/-- Where a field is found, if it is given. -/
def place (name : String) : Option Node → Slot
  | some node => .member name node
  | none => .missing

/-- **What a record makes of its fields.**  They stand in the order of the record, and nothing is
made of them if one of them cannot be read. -/
structure Makes (r : Record α) (origin : Origin) (held : List (String × Option Node))
    (made : Option α) : Prop where
  /-- these are its fields, and they pass their tests if something is made of them -/
  fields : List.Forall₂ (fun f m => f.name = m.1 ∧
    ∀ node ∈ m.2, made.isSome → f.check origin node = .ok ()) r.fields held
  /-- whatever else there is to be found -/
  build : ∀ slot : String → Slot, (∀ m ∈ held, slot m.1 = place m.1 m.2) →
    (r.build origin slot).toOption = made

/-- All names that a record knows differ. -/
def Distinct (r : Record α) : Prop :=
  (r.fields.flatMap fun f => f.name :: f.aliases).Nodup

instance (r : Record α) : Decidable r.Distinct :=
  inferInstanceAs (Decidable (List.Nodup _))

theorem toOption_under (name : String) (a : Except Fault α) :
    (under name a).toOption = a.toOption := by
  cases a <;> rfl

namespace Makes

variable {origin : Origin} {held more : List (String × Option Node)}

theorem map {r : Record α} {made : Option α} (h : Makes r origin held made) (f : α → β) :
    Makes (f <$> r) origin held (made.map f) where
  fields := h.fields.imp fun _ _ hm => ⟨hm.1, fun node hn hs => hm.2 node hn (by simpa using hs)⟩
  build slot hslot := by
    show ((r.build origin slot).map f).toOption = _
    rw [← h.build slot hslot]
    cases r.build origin slot <;> rfl

theorem seq {f : Record (α → β)} {r : Record α} {g : Option (α → β)} {made : Option α}
    (hf : Makes f origin held g) (hr : Makes r origin more made) :
    Makes (f <*> r) origin (held ++ more) (g.bind fun g => made.map g) where
  fields := by
    have hboth : ∀ hs : (g.bind fun g => made.map g).isSome = true,
        g.isSome = true ∧ made.isSome = true := by
      cases g <;> cases made <;> simp
    refine List.rel_append (hf.fields.imp ?_) (hr.fields.imp ?_)
    · exact fun _ _ hm => ⟨hm.1, fun node hn hs => hm.2 node hn (hboth hs).1⟩
    · exact fun _ _ hm => ⟨hm.1, fun node hn hs => hm.2 node hn (hboth hs).2⟩
  build slot hslot := by
    obtain ⟨hheld, hmore⟩ := List.forall_mem_append.1 hslot
    show (f.build origin slot >>= fun g => r.build origin slot >>= fun a => pure (g a)).toOption = _
    rw [toOption_bind, hf.build slot hheld]
    congr 1
    funext g
    rw [toOption_bind, hr.build slot hmore]
    exact (Option.map_eq_bind ..).symm

section field

variable {name : String} {aliases : List String} {r : Reader α} {missing : Except Fault α}
  {short : Cause → Except Fault α}

/-- A field that is given. -/
theorem given (node : Node) :
    Makes (field name aliases r missing short) origin [(name, some node)]
      (r origin node).toOption where
  fields := by
    refine .cons ⟨rfl, fun node hnode hs => ?_⟩ .nil
    cases hnode
    cases hread : r origin node with
    | ok a => simp [hread, Except.map]
    | error f => simp [hread, Except.toOption] at hs
  build slot hslot := by
    simp only [field, hslot (name, some node) List.mem_cons_self, place, toOption_under]

/-- A field that is given and can be read. -/
theorem read {node : Node} {a : α} (h : r origin node = .ok a) :
    Makes (field name aliases r missing short) origin [(name, some node)] (some a) :=
  toOption_eq_some.2 h ▸ given node

/-- A field that is left out. -/
theorem leftOut :
    Makes (field name aliases r missing short) origin [(name, none)] missing.toOption where
  fields := .cons ⟨rfl, nofun⟩ .nil
  build slot hslot := by
    simp only [field, hslot (name, none) List.mem_cons_self, place]

end field

/-- Another name for a field changes nothing where it is given under its own. -/
theorem aliased {r : Record α} {made : Option α} (h : Makes r origin held made) (other : String) :
    Makes (Record.aliased other r) origin held made where
  fields := List.forall₂_map_left_iff.2 h.fields
  build := h.build

end Makes

/-! ### Tables -/

section reader

variable {r : Record α}

/-- A field goes by its own name, and no other field does. -/
theorem find?_of_distinct (distinct : r.Distinct) {f : Field} (hf : f ∈ r.fields) :
    r.find? f.name = some f := by
  obtain ⟨-, apart⟩ := List.nodup_flatMap.1 distinct
  have : Std.Symm (Function.onFun List.Disjoint fun f : Field => f.name :: f.aliases) :=
    ⟨fun _ _ h _ ha hb => h hb ha⟩
  have hanswers : f.answersTo f.name = true := by simp [Field.answersTo]
  obtain ⟨g, hg⟩ : ∃ g, r.find? f.name = some g :=
    Option.isSome_iff_exists.1 (List.find?_isSome.2 ⟨f, hf, hanswers⟩)
  have hnames : f.name ∈ g.name :: g.aliases := by
    have hanswers := List.find?_some hg
    simp only [Field.answersTo, Bool.or_eq_true, decide_eq_true_eq,
      List.contains_iff_mem] at hanswers
    rcases hanswers with h | h
    · exact h ▸ List.mem_cons_self
    · exact List.mem_cons_of_mem _ h
  by_cases heq : g = f
  · exact heq ▸ hg
  · have hapart := apart.forall (List.mem_of_find?_eq_some hg) hf heq
    exact absurd List.mem_cons_self (hapart hnames)

/-- The members of fields that are known, each one tested. -/
theorem checkMembers_membersOf (distinct : r.Distinct) {origin : Origin} {fields : List Field}
    {held : List (String × Option Node)} (known : ∀ f ∈ fields, f ∈ r.fields)
    (once : (fields.map Field.name).Nodup) {seen : List String}
    (unseen : ∀ f ∈ fields, f.name ∉ seen)
    (h : List.Forall₂ (fun f m => f.name = m.1 ∧ ∀ node ∈ m.2, f.check origin node = .ok ())
      fields held) : r.checkMembers origin seen (membersOf held) = .ok () := by
  induction h generalizing seen with
  | nil => rfl
  | @cons f m fields held hm _ ih =>
    obtain ⟨hknown, known⟩ := List.forall_mem_cons.1 known
    obtain ⟨hunseen, unseen⟩ := List.forall_mem_cons.1 unseen
    obtain ⟨hfresh, once⟩ := List.nodup_cons.1 once
    obtain ⟨name, node⟩ := m
    obtain ⟨rfl, hcheck⟩ := hm
    cases node with
    | none => exact ih known once unseen
    | some node =>
      have hothers : ∀ g ∈ fields, g.name ∉ f.name :: seen := fun g hg hmem =>
        (List.mem_cons.1 hmem).elim (fun heq => hfresh (heq ▸ List.mem_map_of_mem hg))
          (unseen g hg)
      show r.checkMembers origin seen ((some f.name, node) :: membersOf held) = .ok ()
      rw [checkMembers, find?_of_distinct distinct hknown]
      dsimp only
      rw [if_neg (by simpa using hunseen), hcheck node rfl]
      exact ih known once hothers

theorem slotOfMembers_cons {name : String} {f : Field} (hf : r.find? name = some f)
    (hname : f.name = name) (node : Node) (members : List (Option String × Node))
    (wanted : String) :
    r.slotOfMembers ((some name, node) :: members) wanted =
      if name = wanted then .member name node else r.slotOfMembers members wanted := by
  rw [slotOfMembers, slotOfMembers, List.find?_cons]
  by_cases heq : name = wanted
  · subst heq
    simp [hf, hname]
  · simp [hf, hname, heq]

/-- What the members hold for a field is what was given for it. -/
theorem slotOfMembers_membersOf {held : List (String × Option Node)}
    (known : ∀ m ∈ held, ∃ f, r.find? m.1 = some f ∧ f.name = m.1)
    (once : (held.map Prod.fst).Nodup) :
    (∀ m ∈ held, r.slotOfMembers (membersOf held) m.1 = place m.1 m.2) ∧
      ∀ name ∉ held.map Prod.fst, r.slotOfMembers (membersOf held) name = .missing := by
  induction held with
  | nil => exact ⟨nofun, fun _ _ => rfl⟩
  | cons m held ih =>
    obtain ⟨⟨f, hf, hname⟩, known⟩ := List.forall_mem_cons.1 known
    obtain ⟨hfresh, once⟩ := List.nodup_cons.1 once
    obtain ⟨hheld, habsent⟩ := ih known once
    obtain ⟨name, node⟩ := m
    cases node with
    | none =>
      refine ⟨List.forall_mem_cons.2 ⟨habsent name hfresh, hheld⟩, fun other hother => ?_⟩
      exact habsent other fun h => hother (List.mem_cons_of_mem _ h)
    | some node =>
      have hcons := slotOfMembers_cons hf hname node (membersOf held)
      refine ⟨List.forall_mem_cons.2 ⟨?_, fun m hm => ?_⟩, fun other hother => ?_⟩
      · exact (hcons name).trans (if_pos rfl)
      · have hne : name ≠ m.1 := fun heq => hfresh (List.mem_map.2 ⟨m, hm, heq.symm⟩)
        exact (hcons m.1).trans ((if_neg hne).trans (hheld m hm))
      · have hne : name ≠ other := fun heq => hother (heq ▸ List.mem_cons_self)
        refine (hcons other).trans ((if_neg hne).trans (habsent other fun h => hother ?_))
        exact List.mem_cons_of_mem _ h

theorem names_nodup (distinct : r.Distinct) : (r.fields.map Field.name).Nodup := by
  obtain ⟨-, apart⟩ := List.nodup_flatMap.1 distinct
  refine List.pairwise_map.2 (apart.imp fun hapart heq => ?_)
  exact hapart List.mem_cons_self (heq ▸ List.mem_cons_self)

/-- **A record of any number of fields**, given as a table that has them in their order. -/
theorem Makes.reader {origin : Origin} {held : List (String × Option Node)} {made : Option α}
    (h : Makes r origin held made) (distinct : r.Distinct) (title : String) :
    (r.reader title origin (.table (membersOf held) true)).toOption = made := by
  have hnames : r.fields.map Field.name = held.map Prod.fst := by
    rw [← List.forall₂_eq_eq_eq, List.forall₂_map_left_iff, List.forall₂_map_right_iff]
    exact h.fields.imp fun _ _ hm => hm.1
  have hknown : ∀ m ∈ held, ∃ f, r.find? m.1 = some f ∧ f.name = m.1 := by
    intro m hm
    have hmem : m.1 ∈ r.fields.map Field.name := hnames ▸ List.mem_map_of_mem hm
    obtain ⟨f, hf, hname⟩ := List.mem_map.1 hmem
    exact ⟨f, hname ▸ find?_of_distinct distinct hf, hname⟩
  have hbuild := h.build _ (slotOfMembers_membersOf hknown (hnames ▸ names_nodup distinct)).1
  have hread : r.reader title origin (.table (membersOf held) true) =
      r.checkMembers origin [] (membersOf held) >>= fun _ =>
        r.build origin (r.slotOfMembers (membersOf held)) := rfl
  -- if nothing is made of the fields then it does not matter whether a test came first
  rw [hread, toOption_bind, hbuild]
  cases made with
  | none => cases r.checkMembers origin [] (membersOf held) <;> rfl
  | some a =>
    rw [checkMembers_membersOf distinct (fun _ hf => hf) (names_nodup distinct)
      (fun _ _ => List.not_mem_nil)
      (h.fields.imp fun _ _ hm => ⟨hm.1, fun node hnode => hm.2 node hnode rfl⟩)]
    rfl

end reader

/-! ### Two fields -/

variable {γ : Type}

/-- A record of two fields; what they are when they are missing does not matter here. -/
def pair (f : α → β → γ) (a b : String) (ra : Reader α) (rb : Reader β)
    (missA : Except Fault α) (missB : Except Fault β) (shortA : Cause → Except Fault α)
    (shortB : Cause → Except Fault β) : Record γ :=
  f <$> field a [] ra missA shortA <*> field b [] rb missB shortB

variable {f : α → β → γ} {a b : String} {ra : Reader α} {rb : Reader β}
  {missA : Except Fault α} {missB : Except Fault β} {shortA : Cause → Except Fault α}
  {shortB : Cause → Except Fault β}

/-- **A record of two fields**, given as a table with both of them in their order. -/
theorem reader_pair (hne : a ≠ b) (title : String) (origin : Origin) (x y : Node) :
    ((pair f a b ra rb missA missB shortA shortB).reader title origin
        (.table [(some a, x), (some b, y)] true)).toOption =
      (ra origin x).toOption.bind fun u => (rb origin y).toOption.map fun v => f u v := by
  have hmakes : Makes (pair f a b ra rb missA missB shortA shortB) origin
      ([(a, some x)] ++ [(b, some y)]) _ := ((Makes.given x).map f).seq (.given y)
  have hdistinct : [a, b].Nodup := by simp [hne]
  refine (hmakes.reader hdistinct title).trans ?_
  cases (ra origin x).toOption <;> rfl

end Record

end Stylus
