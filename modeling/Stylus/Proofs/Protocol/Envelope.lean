import Stylus.Proofs.Document.Record
import Stylus.Protocol.Request

/-!
# The name that comes with a request

A line is read twice if it has to be: as a request with a name for the reply beside its members, and
if that fails as a request alone.  Under which name is it answered then?

Both times one member is taken out of a table and all others are held in memory: the name, and the
tag that says which request it is (`Reader.takeOut`).  A request does not mind the name among its
members (`Request.ignores_id`), so a line that has a name as it should be, a text given once, is not
read as a request alone unless it is none at all.

* `Reader.TakesOut` — when a member can be taken out;
* `Envelope.givenId` — the name that a document gives;
* `Envelope.id_of_ofLine` — **a line that is accepted has the name that it gives**, and no name if
  what it gives is no text, or more than one.
-/

set_option autoImplicit false

namespace Stylus

/-! ## Taking out a member -/

namespace Reader

variable {α : Type}

/-- What the members of a name hold. -/
def under (name : String) (members : List (Option String × Node)) : List Node :=
  members.filterMap fun m => if m.1 = some name then some m.2 else none

/-- The members of other names. -/
def without (name : String) (members : List (Option String × Node)) :
    List (Option String × Node) :=
  members.filter (·.1 ≠ some name)

theorem mem_under {name : String} {members : List (Option String × Node)}
    {m : Option String × Node} (hm : m ∈ members) (hname : m.1 = some name) :
    m.2 ∈ under name members :=
  List.mem_filterMap.2 ⟨m, hm, if_pos hname⟩

theorem under_eq_nil {name : String} {members : List (Option String × Node)}
    (h : ∀ m ∈ members, m.1 ≠ some name) : under name members = [] :=
  List.filterMap_eq_nil_iff.2 fun m hm => if_neg (h m hm)

theorem without_eq_self {name : String} {members : List (Option String × Node)}
    (h : ∀ m ∈ members, m.1 ≠ some name) : without name members = members :=
  List.filter_eq_self.2 fun m hm => decide_eq_true (h m hm)

section cons

variable {name other : String} (node : Node) (members : List (Option String × Node))

theorem under_cons_same : under name ((some name, node) :: members) = node :: under name members :=
  List.filterMap_cons_some (if_pos rfl)

theorem under_cons_other (h : other ≠ name) :
    under name ((some other, node) :: members) = under name members :=
  List.filterMap_cons_none (if_neg fun heq => h (Option.some.inj heq))

theorem without_cons_same : without name ((some name, node) :: members) = without name members :=
  List.filter_cons_of_neg (by simp)

theorem without_cons_other (h : other ≠ name) :
    without name ((some other, node) :: members) = (some other, node) :: without name members :=
  List.filter_cons_of_pos (by simpa using h)

end cons

/-- Takes a member out of a table that may be there once, and holds all others in memory; `given` is
what was taken out before. -/
def takeOut (name : String) (read : Node → Except Fault α) :
    Option α → List (Option String × Node) →
      Except Fault (Option α × List (Option String × Node))
  | given, [] => .ok (given, [])
  | _, (none, _) :: _ => fault .malformed
  | given, (some other, node) :: rest =>
    if other = name then
      if given.isSome then fault (.duplicateField name)
      else do
        let a ← read node
        takeOut name read (some a) rest
    else do
      let node ← hold .running node
      let (given, rest) ← takeOut name read given rest
      return (given, (some other, node) :: rest)

/-- What was given before, or is read once. -/
inductive Once (read : Node → Except Fault α) : Option α → List Node → Option α → Prop where
  | absent (given : Option α) : Once read given [] given
  | found {node : Node} {a : α} (reads : read node = .ok a) : Once read none [node] (some a)

/-- **When a member can be taken out**: it is there once at most, and all others can be held. -/
structure TakesOut (name : String) (read : Node → Except Fault α) (given : Option α)
    (members : List (Option String × Node)) (taken : Option α) : Prop where
  named : ∀ m ∈ members, m.1.isSome = true
  sound : ∀ m ∈ members, m.1 ≠ some name → m.2.isSound heldDepth = true
  once : Once read given (under name members) taken

theorem takesOut_of_ok {name : String} {read : Node → Except Fault α} {given taken : Option α}
    {members rest : List (Option String × Node)}
    (h : takeOut name read given members = .ok (taken, rest)) :
    TakesOut name read given members taken ∧ rest = without name members := by
  induction members generalizing given rest with
  | nil =>
    cases h
    exact ⟨⟨nofun, nofun, .absent _⟩, rfl⟩
  | cons m members ih =>
    obtain ⟨_ | other, node⟩ := m
    · cases h
    · rw [takeOut] at h
      by_cases hname : other = name
      · subst hname
        rw [if_pos rfl] at h
        by_cases hgiven : given.isSome
        · rw [if_pos hgiven] at h
          cases h
        · obtain rfl : given = none := by simpa using hgiven
          obtain ⟨a, hread, hrest⟩ := bind_eq_ok.1 h
          obtain ⟨htakes, rfl⟩ := ih hrest
          refine ⟨⟨?_, ?_, ?_⟩, (without_cons_same _ _).symm⟩
          · exact List.forall_mem_cons.2 ⟨rfl, htakes.named⟩
          · exact List.forall_mem_cons.2 ⟨fun hne => absurd rfl hne, htakes.sound⟩
          · have honce := htakes.once
            rw [under_cons_same]
            generalize under other members = nodes at honce
            cases honce
            exact .found hread
      · rw [if_neg hname, hold] at h
        obtain ⟨held, hheld, hleft⟩ := bind_eq_ok.1 h
        obtain ⟨⟨left, others⟩, htake, hpair⟩ := bind_eq_ok.1 hleft
        cases hpair
        obtain ⟨htakes, rfl⟩ := ih htake
        by_cases hsound : node.isSound heldDepth = true
        · rw [if_pos hsound] at hheld
          cases hheld
          refine ⟨⟨?_, ?_, (under_cons_other _ _ hname).symm ▸ htakes.once⟩, ?_⟩
          · exact List.forall_mem_cons.2 ⟨rfl, htakes.named⟩
          · exact List.forall_mem_cons.2 ⟨fun _ => hsound, htakes.sound⟩
          · exact (without_cons_other _ _ hname).symm
        · rw [if_neg hsound] at hheld
          cases hheld

theorem takeOut_of_takesOut {name : String} {read : Node → Except Fault α}
    {given taken : Option α} {members : List (Option String × Node)}
    (h : TakesOut name read given members taken) :
    takeOut name read given members = .ok (taken, without name members) := by
  induction members generalizing given with
  | nil =>
    have honce : Once read given [] taken := h.once
    cases honce
    rfl
  | cons m members ih =>
    obtain ⟨hm, hnamed⟩ := List.forall_mem_cons.1 h.named
    obtain ⟨hsound, hsounds⟩ := List.forall_mem_cons.1 h.sound
    have honce := h.once
    obtain ⟨_ | other, node⟩ := m
    · cases hm
    · rw [takeOut]
      by_cases hname : other = name
      · subst hname
        rw [under_cons_same] at honce
        generalize hnodes : under other members = nodes at honce
        -- the node is the only one of the name, so nothing is taken out of the other members
        cases honce with
        | found hread =>
          have hrest := ih ⟨hnamed, hsounds, hnodes.symm ▸ Once.absent (some _)⟩
          rw [if_pos rfl, without_cons_same, hread]
          exact hrest
      · have hne : some other ≠ some name := fun heq => hname (Option.some.inj heq)
        rw [under_cons_other _ _ hname] at honce
        have hrest := ih ⟨hnamed, hsounds, honce⟩
        rw [if_neg hname, hold, if_pos (hsound hne), without_cons_other _ _ hname]
        show (takeOut name read given members >>= fun result =>
          .ok (result.1, (some other, node) :: result.2)) = _
        rw [hrest]
        rfl

theorem under_without {name other : String} (h : name ≠ other)
    (members : List (Option String × Node)) :
    under name (without other members) = under name members := by
  rw [under, under, without, List.filterMap_filter]
  congr 1
  funext m
  by_cases hm : m.1 = some name
  · simp [hm, h]
  · simp [hm]

theorem without_comm (name other : String) (members : List (Option String × Node)) :
    without name (without other members) = without other (without name members) := by
  simp only [without, List.filter_filter, Bool.and_comm]

/-- Another member can still be taken out when one is gone. -/
theorem TakesOut.without {name other : String} {read : Node → Except Fault α}
    {given taken : Option α} {members : List (Option String × Node)}
    (h : TakesOut name read given members taken) (hne : name ≠ other) :
    TakesOut name read given (without other members) taken where
  named m hm := h.named m (List.mem_filter.1 hm).1
  sound m hm := h.sound m (List.mem_filter.1 hm).1
  once := by
    rw [under_without hne]
    exact h.once

/-- What can be taken out when another member is gone can be taken out while it is there, if it can
be held. -/
theorem TakesOut.of_without {name other : String} {read : Node → Except Fault α}
    {given taken : Option α} {members : List (Option String × Node)}
    (h : TakesOut name read given (Reader.without other members) taken) (hne : name ≠ other)
    (named : ∀ m ∈ members, m.1.isSome = true)
    (sound : ∀ node ∈ under other members, node.isSound heldDepth = true) :
    TakesOut name read given members taken where
  named := named
  sound m hm hm' := by
    by_cases hother : m.1 = some other
    · exact sound _ (mem_under hm hother)
    · exact h.sound m (List.mem_filter.2 ⟨hm, decide_eq_true hother⟩) hm'
  once := by
    rw [← under_without hne]
    exact h.once

/-- In a document held in memory, the reader does not mind members of a name. -/
def Ignores (name : String) (r : Reader α) : Prop :=
  ∀ members : List (Option String × Node),
    r .held (.table (without name members) true) = r .held (.table members true)

end Reader

/-! ## Members that nobody asks for -/

namespace Record

variable {α : Type} {r : Record α} {name : String}

theorem checkMembers_without (h : r.find? name = none) (seen : List String)
    (members : List (Option String × Node)) :
    r.checkMembers .held seen (Reader.without name members) =
      r.checkMembers .held seen members := by
  induction members generalizing seen with
  | nil => rfl
  | cons m members ih =>
    obtain ⟨_ | other, node⟩ := m
    · rfl
    · by_cases hname : other = name
      · subst hname
        rw [Reader.without_cons_same, checkMembers, h, ih]
        rfl
      · rw [Reader.without_cons_other _ _ hname, checkMembers, checkMembers]
        simp only [ih]

theorem slotOfMembers_without (h : r.find? name = none) (members : List (Option String × Node)) :
    r.slotOfMembers (Reader.without name members) = r.slotOfMembers members := by
  funext field
  rw [slotOfMembers, slotOfMembers, Reader.without, List.find?_filter]
  congr 2
  funext m
  by_cases hm : m.1 = some name
  · simp [hm, h]
  · simp [hm]

/-- **A record does not mind members that it does not know.** -/
theorem ignores_of_find? (h : r.find? name = none) (title : String) :
    (r.reader title).Ignores name := by
  intro members
  rw [reader, reader, ofMembers, ofMembers, checkMembers_without h, slotOfMembers_without h]

end Record

/-! ## The tag -/

namespace Tagged

variable {α : Type}

/-- The tag is taken out of the members. -/
theorem split_eq_takeOut (t : Tagged α) (origin : Origin) (chosen : Option (Reader α))
    (members : List (Option String × Node)) :
    t.split origin chosen members =
      Reader.takeOut t.tag (t.variant origin) chosen members := by
  induction members generalizing chosen with
  | nil => rfl
  | cons m members ih =>
    obtain ⟨_ | name, node⟩ := m
    · rfl
    · rw [split, Reader.takeOut]
      simp only [ih]
      rfl

/-- A tag is a text, or the number of a variant. -/
theorem tag_of_variant {t : Tagged α} {origin : Origin} {node : Node} {v : Reader α}
    (h : t.variant origin node = .ok v) :
    (∃ tag, node = .text tag ∧ ∀ origin, t.variant origin (.text tag) = .ok v) ∨
      ∃ (n : Nat) (name : String), node = .integer n ∧ origin = .held ∧
        t.variants[n]? = some (name, v) := by
  match node with
  | .text tag => exact .inl ⟨tag, rfl, fun _ => h⟩
  | .integer i =>
    rw [variant] at h
    split at h
    · rename_i hnumber
      obtain ⟨n, rfl⟩ := Int.eq_ofNat_of_zero_le hnumber.2
      split at h
      · rename_i known hknown
        cases h
        exact .inr ⟨n, known.1, rfl, hnumber.1, hknown⟩
      · contradiction
    · contradiction
  | .null | .boolean _ | .real _ | .unreadable | .broken | .list _ _ | .table _ _ => cases h

/-- The variant that a tag names is one of the variants. -/
theorem mem_of_variant {t : Tagged α} {origin : Origin} {node : Node} {v : Reader α}
    (h : t.variant origin node = .ok v) : ∃ name, (name, v) ∈ t.variants := by
  rcases tag_of_variant h with ⟨tag, -, htag⟩ | ⟨n, name, -, -, hknown⟩
  · have hnamed : Reader.pick t.variants tag = .ok v := htag .running
    rw [Reader.pick] at hnamed
    split at hnamed
    · rename_i a ha
      cases hnamed
      obtain ⟨known, hfind, rfl⟩ := Option.map_eq_some_iff.1 ha
      exact ⟨known.1, List.mem_of_find?_eq_some hfind⟩
    · contradiction
  · exact ⟨name, List.mem_of_getElem? hknown⟩

/-- A tag can be held in memory. -/
theorem isSound_of_variant {t : Tagged α} {origin : Origin} {node : Node} {v : Reader α}
    (h : t.variant origin node = .ok v) (depth : Nat) : node.isSound depth = true := by
  rcases tag_of_variant h with ⟨tag, rfl, -⟩ | ⟨n, name, rfl, -⟩ <;> rfl

/-- **What the tag of a choice is**: it is there once, as a text or as the number of a variant. -/
theorem tag_of_takesOut {t : Tagged α} {origin : Origin} {members : List (Option String × Node)}
    {v : Reader α} (h : Reader.TakesOut t.tag (t.variant origin) none members (some v)) :
    ∃ node, Reader.under t.tag members = [node] ∧ t.variant origin node = .ok v := by
  have honce := h.once
  generalize Reader.under t.tag members = nodes at honce
  cases honce with
  | found hreads => exact ⟨_, rfl, hreads⟩

/-- A tag in a running text would be the same if it were held in memory. -/
theorem takesOut_held {t : Tagged α} {members : List (Option String × Node)} {v : Reader α}
    (h : Reader.TakesOut t.tag (t.variant .running) none members (some v)) :
    Reader.TakesOut t.tag (t.variant .held) none members (some v) := by
  obtain ⟨node, hnode, hvariant⟩ := tag_of_takesOut h
  obtain ⟨tag, rfl, htag⟩ | ⟨n, name, -, hheld, -⟩ := tag_of_variant hvariant
  · exact ⟨h.named, h.sound, hnode ▸ .found (htag .held)⟩
  · contradiction

/-- **What a choice is made of**: its tag is there once, and all other members can be held. -/
theorem reader_table_eq_ok {t : Tagged α} {origin : Origin}
    {members : List (Option String × Node)} {closed : Bool} {a : α} :
    t.reader origin (.table members closed) = .ok a ↔
      ∃ v, Reader.TakesOut t.tag (t.variant origin) none members (some v) ∧ closed = true ∧
        v .held (.table (Reader.without t.tag members) true) = .ok a := by
  rw [reader, split_eq_takeOut, bind_eq_ok]
  constructor
  · rintro ⟨⟨chosen, rest⟩, htake, h⟩
    obtain ⟨htakes, rfl⟩ := Reader.takesOut_of_ok htake
    obtain ⟨_, hfinished, hread⟩ := bind_eq_ok.1 h
    obtain ⟨hclosed, -⟩ := Reader.finished_eq_ok.1 hfinished
    cases chosen with
    | none => cases hread
    | some v => exact ⟨v, htakes, hclosed, hread⟩
  · rintro ⟨v, htakes, rfl, hread⟩
    exact ⟨_, Reader.takeOut_of_takesOut htakes, hread⟩

end Tagged

/-! ## The name of a request -/

namespace Request

/-- **No request minds a name.** -/
theorem ignores_id : ∀ v ∈ tagged.variants, v.2.Ignores "id" := by
  have plain (request : Request) : Reader.Ignores "id" (Record.unit request) := fun _ => rfl
  simp only [tagged, List.forall_mem_cons]
  refine ⟨plain _, plain _, plain _, plain _, ?_, ?_, ?_, plain _, ?_, plain _, plain _, plain _,
    plain _, plain _, plain _, plain _, plain _, ?_, nofun⟩ <;>
  exact Record.ignores_of_find? rfl _

end Request

namespace Envelope

theorem split_eq_takeOut (origin : Origin) (id : Option (Option String))
    (members : List (Option String × Node)) :
    split origin id members =
      (Reader.takeOut "id" (Reader.optional Reader.text origin) id members).map
        fun taken => (taken.1.getD none, taken.2) := by
  induction members generalizing id with
  | nil => rfl
  | cons m members ih =>
    obtain ⟨_ | name, node⟩ := m
    · rfl
    · rw [split, Reader.takeOut]
      simp only [ih]
      by_cases hname : name = "id"
      · rw [if_pos hname, if_pos hname]
        by_cases hid : id.isSome
        · rw [if_pos hid, if_pos hid]
          rfl
        · rw [if_neg hid, if_neg hid]
          cases Reader.optional Reader.text origin node <;> rfl
      · rw [if_neg hname, if_neg hname]
        rw [Reader.hold, Reader.hold]
        by_cases hsound : node.isSound Reader.heldDepth = true
        · rw [if_pos hsound]
          cases Reader.takeOut "id" (Reader.optional Reader.text origin) id members <;> rfl
        · rw [if_neg hsound]
          rfl

/-- A request with a name is a table. -/
theorem table_of_named {origin : Origin} {root : Node} {e : Envelope}
    (h : named origin root = .ok e) : ∃ members closed, root = .table members closed := by
  match root with
  | .table members closed => exact ⟨members, closed, rfl⟩
  | .null | .boolean _ | .integer _ | .real _ | .text _ | .unreadable | .broken | .list _ _ =>
    cases h

/-- **What a request with a name is made of**: the name is there once at most, all other members can
be held, and they are a request. -/
theorem named_table_eq_ok {origin : Origin} {members : List (Option String × Node)}
    {closed : Bool} {e : Envelope} :
    named origin (.table members closed) = .ok e ↔
      ∃ id, Reader.TakesOut "id" (Reader.optional Reader.text origin) none members id ∧
        closed = true ∧ e.id = id.getD none ∧
        Request.reader .held (.table (Reader.without "id" members) true) = .ok e.request := by
  rw [named, split_eq_takeOut, bind_eq_ok]
  constructor
  · rintro ⟨taken, hsplit, h⟩
    obtain ⟨⟨id, rest⟩, htake, rfl⟩ := map_eq_ok.1 hsplit
    obtain ⟨htakes, rfl⟩ := Reader.takesOut_of_ok htake
    obtain ⟨_, hfinished, hread⟩ := bind_eq_ok.1 h
    obtain ⟨request, hrequest, rfl⟩ := map_eq_ok.1 hread
    exact ⟨id, htakes, (Reader.finished_eq_ok.1 hfinished).1, rfl, hrequest⟩
  · rintro ⟨id, htakes, rfl, hid, hrequest⟩
    obtain ⟨name, request⟩ := e
    obtain rfl : name = id.getD none := hid
    exact ⟨_, map_eq_ok.2 ⟨_, Reader.takeOut_of_takesOut htakes, rfl⟩,
      map_eq_ok.2 ⟨request, hrequest, rfl⟩⟩

/-- The text that nodes are, if they are one text. -/
def oneText : List Node → Option String
  | [.text s] => some s
  | _ => none

theorem of_oneText {nodes : List Node} {s : String} (h : oneText nodes = some s) :
    nodes = [.text s] := by
  unfold oneText at h
  split at h
  · cases h
    rfl
  · cases h

/-- The name that a document gives for the reply: it is a text, and given once. -/
def givenId : Node → Option String
  | .table members _ => oneText (Reader.under "id" members)
  | _ => none

theorem of_givenId {root : Node} {id : String} (h : givenId root = some id) :
    ∃ members closed, root = .table members closed ∧ Reader.under "id" members = [.text id] := by
  match root with
  | .table members closed =>
    exact ⟨members, closed, rfl, of_oneText h⟩
  | .null | .boolean _ | .integer _ | .real _ | .text _ | .unreadable | .broken | .list _ _ =>
    cases h

/-- What may be given for a name: none, nothing or a text. -/
inductive MayName : List Node → Prop where
  | absent : MayName []
  | null : MayName [.null]
  | text (s : String) : MayName [.text s]

/-- A name is taken out as it is given. -/
theorem mayName_of_once {origin : Origin} {nodes : List Node} {id : Option (Option String)}
    (h : Reader.Once (Reader.optional Reader.text origin) none nodes id) :
    MayName nodes ∧ id.getD none = oneText nodes := by
  cases h with
  | absent => exact ⟨.absent, rfl⟩
  | @found node taken hreads =>
    match node with
    | .text s =>
      cases hreads
      exact ⟨.text s, rfl⟩
    | .null =>
      cases hreads
      exact ⟨.null, rfl⟩
    | .boolean _ | .integer _ | .real _ | .unreadable | .broken | .list _ _ | .table _ _ =>
      cases hreads

theorem once_of_mayName (origin : Origin) {nodes : List Node} (h : MayName nodes) :
    ∃ id, Reader.Once (Reader.optional Reader.text origin) none nodes id := by
  match h with
  | .absent => exact ⟨_, .absent _⟩
  | .null | .text _ => exact ⟨_, .found rfl⟩

theorem MayName.isSound {nodes : List Node} (h : MayName nodes) (depth : Nat) :
    ∀ node ∈ nodes, node.isSound depth = true := by
  match h with
  | .absent => exact nofun
  | .null | .text _ => exact List.forall_mem_singleton.2 rfl

/-- **A request with a name is read like a request alone**, but that its tag is read as one that is
held in memory. -/
theorem named_eq_ok {origin : Origin} {members : List (Option String × Node)} {closed : Bool}
    {e : Envelope} :
    named origin (.table members closed) = .ok e ↔
      ∃ v id, Reader.TakesOut Request.tagged.tag (Request.tagged.variant .held) none members
          (some v) ∧
        Reader.Once (Reader.optional Reader.text origin) none (Reader.under "id" members) id ∧
        closed = true ∧ e.id = id.getD none ∧
        v .held (.table (Reader.without Request.tagged.tag members) true) = .ok e.request := by
  have hne : Request.tagged.tag ≠ "id" := by decide
  rw [named_table_eq_ok]
  constructor
  · rintro ⟨id, htakes, hclosed, hid, hrequest⟩
    obtain ⟨v, htag, -, hread⟩ := Tagged.reader_table_eq_ok.1 hrequest
    obtain ⟨node, -, hvariant⟩ := Tagged.tag_of_takesOut htag
    obtain ⟨name, hmem⟩ := Tagged.mem_of_variant hvariant
    have hsound := (mayName_of_once htakes.once).1.isSound Reader.heldDepth
    refine ⟨v, id, htag.of_without hne htakes.named hsound, htakes.once, hclosed, hid, ?_⟩
    rw [Reader.without_comm] at hread
    exact (Request.ignores_id _ hmem _).symm.trans hread
  · rintro ⟨v, id, htag, honce, hclosed, hid, hread⟩
    obtain ⟨node, htext, hvariant⟩ := Tagged.tag_of_takesOut htag
    obtain ⟨name, hmem⟩ := Tagged.mem_of_variant hvariant
    refine ⟨id, ⟨htag.named, fun m hm _ => ?_, honce⟩, hclosed, hid, ?_⟩
    · by_cases htagged : m.1 = some Request.tagged.tag
      · have hnode := Reader.mem_under hm htagged
        rw [htext, List.mem_singleton] at hnode
        rw [hnode]
        exact Tagged.isSound_of_variant hvariant _
      · exact htag.sound m hm htagged
    · refine Tagged.reader_table_eq_ok.2 ⟨v, htag.without hne, rfl, ?_⟩
      rw [Reader.without_comm]
      exact (Request.ignores_id _ hmem _).trans hread

/-- **A line that has a name as it should be is not read as a request alone**, unless it is none at
all: what is a request alone is one with a name as well. -/
theorem named_of_request {members : List (Option String × Node)} {closed : Bool}
    {request : Request} {id : String} (hid : Reader.under "id" members = [.text id])
    (h : Request.reader .running (.table members closed) = .ok request) :
    named .running (.table members closed) = .ok ⟨some id, request⟩ := by
  obtain ⟨v, htag, hclosed, hread⟩ := Tagged.reader_table_eq_ok.1 h
  refine named_eq_ok.2 ⟨v, some (some id), Tagged.takesOut_held htag, ?_, hclosed, rfl,
    hread⟩
  rw [hid]
  exact .found rfl

/-- **The two ways in which a line is accepted**: it is read with its name, or it is a request alone
and cannot be read with a name. -/
theorem cases_of_ofLine {line : String} {e : Envelope} (h : ofLine line = .ok e) :
    (∃ members closed, (Document.ofText line).clean = true ∧
        (Document.ofText line).root = .table members closed ∧
        named .running (.table members closed) = .ok e) ∨
      ∃ f request, named.ofText line = .error f ∧ Request.reader.ofText line = .ok request ∧
        e = ⟨none, request⟩ := by
  rw [ofLine] at h
  split at h
  · rename_i read
    cases h
    obtain ⟨clean, read⟩ := Reader.ofText_eq_ok.1 read
    obtain ⟨members, closed, root⟩ := table_of_named read
    exact .inl ⟨members, closed, clean, root, root ▸ read⟩
  · rename_i f unnamed
    obtain ⟨request, alone, rfl⟩ := map_eq_ok.1 h
    exact .inr ⟨f, request, unnamed, alone, rfl⟩

/-- **A line that is accepted has the name that it gives**, and none if what it gives is no text, or
more than one. -/
theorem id_of_ofLine {line : String} {e : Envelope} (h : ofLine line = .ok e) :
    e.id = givenId (Document.ofText line).root := by
  rcases cases_of_ofLine h with
    ⟨members, closed, -, hroot, hread⟩ | ⟨f, request, hnamed, halone, rfl⟩
  · obtain ⟨id, htakes, -, hid, -⟩ := named_table_eq_ok.1 hread
    rw [hroot]
    exact hid.trans (mayName_of_once htakes.once).2
  · obtain ⟨hclean, hread⟩ := Reader.ofText_eq_ok.1 halone
    cases hgiven : givenId (Document.ofText line).root with
    | none => rfl
    | some id =>
      -- it would have been read with its name
      obtain ⟨members, closed, hroot, hid⟩ := of_givenId hgiven
      rw [hroot] at hread
      have hok := Reader.ofText_eq_ok.2 ⟨hclean, hroot ▸ named_of_request hid hread⟩
      cases hok.symm.trans hnamed

end Envelope

end Stylus
