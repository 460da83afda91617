import Stylus.Document.Record
import Stylus.Proofs.Document.Record
import Stylus.Proofs.Number.Finite

/-!
# Numbers in documents are finite

A document has no way to say that a number is infinite or undefined, and a numeral that stands for
too large a number is no value.  So there are none but finite numbers in the tree of a text, and
none but finite numbers get out of it.

* `Node.Proper` — the tree has none but finite numbers in it;
* `Document.proper_ofText` — **the tree of a text is proper**;
* `Reader.Yields`, `Record.Yields` — what a reader makes of proper trees has a property, with a rule
  for each way of putting readers together;
* `Reader.Yields.ofText` — so has what it makes of a text.
-/

set_option autoImplicit false

namespace Stylus

/-! ## Trees -/

/-- A tree with none but finite numbers in it; whole numbers are of up to 64 bits. -/
inductive Node.Proper : Node → Prop where
  | null : Proper .null
  | boolean (b : Bool) : Proper (.boolean b)
  | integer {n : Int} (small : n.natAbs ≤ 2 ^ 64) : Proper (.integer n)
  | real {x : Float} (finite : Number.isFinite x = true) : Proper (.real x)
  | text (s : String) : Proper (.text s)
  | unreadable : Proper .unreadable
  | broken : Proper .broken
  | list {items : List Node} (closed : Bool) (each : ∀ node ∈ items, Proper node) :
    Proper (.list items closed)
  | table {members : List (Option String × Node)} (closed : Bool)
    (each : ∀ m ∈ members, Proper m.2) : Proper (.table members closed)

namespace Lexeme

/-- A value that is neither text nor container has none but a finite number. -/
def Proper : Lexeme → Prop
  | .leaf node => node.Proper
  | _ => True

theorem proper_numeral (n : Numeral) : n.node.Proper := by
  rw [Numeral.node]
  dsimp only
  split
  · rename_i h
    have hsmall : Number.Scaled.valueOf n.whole < UInt64.size := by simp_all
    exact .integer (by rw [Int.natAbs_natCast]; exact Nat.le_of_lt hsmall)
  · split
    · rename_i h
      have hsmall : Number.Scaled.valueOf n.whole ≤ UInt64.size / 2 := by simp_all
      refine .integer ?_
      rw [Int.natAbs_neg, Int.natAbs_natCast]
      exact Nat.le_trans hsmall (by decide)
    · split
      · rename_i x hx
        exact .real (Number.isFinite_scaled _ _ _ _ _ x hx)
      · exact .unreadable

theorem proper_named (c : Char) (rest : List Char) : (named c rest).1.Proper := by
  rw [named.eq_def]
  split
  · split
    · exact .null
    · exact trivial
  · split
    · exact .boolean true
    · exact trivial
  · split
    · exact .boolean false
    · exact trivial
  · exact trivial

theorem proper_next (c : Char) (rest : List Char) : (next c rest).1.Proper := by
  rw [next.eq_def]
  split
  · exact trivial
  · exact trivial
  · exact trivial
  · exact trivial
  · exact trivial
  · exact trivial
  · rw [textual]
    split <;> exact trivial
  · split
    · rw [numeric.eq_def]
      split
      · exact proper_numeral _
      · exact trivial
    · exact proper_named c rest

theorem proper_lexemes (cs : List Char) : ∀ lexeme ∈ lexemes cs, lexeme.Proper := by
  fun_induction lexemes cs with
  | case1 => exact nofun
  | case2 c rest space ih => exact ih
  | case3 c rest space lexeme after hnext ih =>
    refine List.forall_mem_cons.mpr ⟨?_, ih⟩
    have hproper := proper_next c rest
    rwa [hnext] at hproper

end Lexeme

namespace Scan

/-- What the container holds so far is proper. -/
def Frame.Proper : Frame → Prop
  | .list items => ∀ node ∈ items, node.Proper
  | .table members | .member members _ => ∀ m ∈ members, m.2.Proper

/-- What is known of the tree so far is proper. -/
def Step.Proper : Step → Prop
  | .more frames _ => ∀ frame ∈ frames, frame.Proper
  | .done root | .cut root => root.Proper

variable {frames : List Frame} {node : Node}

theorem proper_holding {frame : Frame} (hframe : frame.Proper) (hnode : node.Proper) :
    (frame.holding node).Proper := by
  match frame, hframe with
  | .list items, hframe => exact List.forall_mem_cons.mpr ⟨hnode, hframe⟩
  | .table members, hframe => exact hframe
  | .member members name, hframe => exact List.forall_mem_cons.mpr ⟨hnode, hframe⟩

theorem proper_cut {frame : Frame} (hframe : frame.Proper) : frame.cut.Proper := by
  match frame, hframe with
  | .list items, hframe => exact .list _ fun node hnode => hframe node (List.mem_reverse.mp hnode)
  | .table members, hframe => exact .table _ fun m hm => hframe m (List.mem_reverse.mp hm)
  | .member members name, hframe =>
    refine .table _ fun m hm => ?_
    rcases List.mem_cons.mp (List.mem_reverse.mp hm) with rfl | hm
    · exact .broken
    · exact hframe m hm

theorem proper_abandon (h : ∀ frame ∈ frames, frame.Proper) : (abandon frames).Proper := by
  match frames, h with
  | [], _ => exact .broken
  | frame :: frames, h =>
    obtain ⟨hframe, hframes⟩ := List.forall_mem_cons.mp h
    have hcut := proper_cut hframe
    rw [abandon]
    generalize frame.cut = node at hcut ⊢
    clear h hframe
    induction frames generalizing node with
    | nil => exact hcut
    | cons outer frames ih =>
      obtain ⟨houter, hframes⟩ := List.forall_mem_cons.mp hframes
      exact ih hframes _ (proper_cut (proper_holding houter hcut))

theorem proper_deliver (h : ∀ frame ∈ frames, frame.Proper) (hnode : node.Proper) :
    (deliver node frames).Proper := by
  match frames, h with
  | [], _ => exact hnode
  | frame :: frames, h =>
    obtain ⟨hframe, hframes⟩ := List.forall_mem_cons.mp h
    exact List.forall_mem_cons.mpr ⟨proper_holding hframe hnode, hframes⟩

theorem proper_value (h : ∀ frame ∈ frames, frame.Proper) {lexeme : Lexeme} (hl : lexeme.Proper) :
    (value frames lexeme).Proper := by
  match lexeme, hl with
  | .openList, _ | .openTable, _ => exact List.forall_mem_cons.mpr ⟨nofun, h⟩
  | .text (some s), _ => exact proper_deliver h (.text s)
  | .text none, _ => exact proper_deliver h .unreadable
  | .leaf node, hl => exact proper_deliver h hl
  | .closeList, _ | .closeTable, _ | .comma, _ | .colon, _ | .fault, _ => exact proper_abandon h

theorem proper_name (h : ∀ frame ∈ frames, frame.Proper) (lexeme : Lexeme) :
    (name frames lexeme).Proper := by
  rw [name.eq_def]
  split
  · obtain ⟨hmembers, hframes⟩ := List.forall_mem_cons.mp h
    exact List.forall_mem_cons.mpr ⟨hmembers, hframes⟩
  · exact proper_abandon h

theorem proper_separator (h : ∀ frame ∈ frames, frame.Proper) (lexeme : Lexeme) :
    (separator frames lexeme).Proper := by
  rw [separator.eq_def]
  split
  · exact h
  · exact h
  · rename_i items frames
    obtain ⟨hitems, hframes⟩ := List.forall_mem_cons.mp h
    exact proper_deliver hframes (.list _ fun node hn => hitems node (List.mem_reverse.mp hn))
  · rename_i members frames
    obtain ⟨hmembers, hframes⟩ := List.forall_mem_cons.mp h
    exact proper_deliver hframes (.table _ fun m hm => hmembers m (List.mem_reverse.mp hm))
  · exact proper_abandon h

theorem proper_step (h : ∀ frame ∈ frames, frame.Proper) {lexeme : Lexeme} (hl : lexeme.Proper)
    (expect : Expect) : (step frames lexeme expect).Proper := by
  rw [step.eq_def]
  split
  · exact proper_value h hl
  · split
    · exact proper_separator h _
    · exact proper_value h hl
  · split
    · exact proper_separator h _
    · exact proper_name h _
  · exact proper_name h _
  · split
    · exact h
    · exact proper_abandon h
  · exact proper_separator h _

theorem proper_run (h : ∀ frame ∈ frames, frame.Proper) (expect : Expect) {lexemes : List Lexeme}
    (hl : ∀ lexeme ∈ lexemes, lexeme.Proper) : (run frames expect lexemes).root.Proper := by
  induction lexemes generalizing frames expect with
  | nil => exact proper_abandon h
  | cons lexeme rest ih =>
    obtain ⟨hlexeme, hrest⟩ := List.forall_mem_cons.mp hl
    have hstep := proper_step h hlexeme expect
    rw [run]
    split
    · rename_i frames' expect' hs
      rw [hs] at hstep
      exact ih hstep expect' hrest
    · rename_i hs
      rw [hs] at hstep
      exact hstep
    · rename_i hs
      rw [hs] at hstep
      exact hstep

end Scan

/-- **The tree of a text is proper.** -/
theorem Document.proper_ofText (s : String) : (Document.ofText s).root.Proper :=
  Scan.proper_run (fun _ hm => absurd hm List.not_mem_nil) .value
    (Lexeme.proper_lexemes s.toList)

/-! ## Entries that come from elsewhere -/

namespace Index

variable {α : Type}

theorem mem_foldl_insert {entries : List (String × α)} {e : String × α} (ix : Index α)
    (h : e ∈ (entries.foldl (fun ix e => ix.insert e.1 e.2) ix).entries) :
    e ∈ ix.entries ∨ e ∈ entries := by
  induction entries generalizing ix with
  | nil => exact .inl h
  | cons first rest ih =>
    rcases ih _ h with h | h
    · rcases mem_insertEntry h with rfl | h
      · exact .inr List.mem_cons_self
      · exact .inl h
    · exact .inr (List.mem_cons_of_mem _ h)

theorem mem_ofList {entries : List (String × α)} {e : String × α}
    (h : e ∈ (ofList entries).entries) : e ∈ entries :=
  (mem_foldl_insert empty h).resolve_left List.not_mem_nil

end Index

theorem mem_of_mapM_eq_ok {ε α β : Type} {f : α → Except ε β} {as : List α} {bs : List β}
    (h : as.mapM f = .ok bs) : ∀ b ∈ bs, ∃ a ∈ as, f a = .ok b := by
  induction as generalizing bs with
  | nil =>
    cases h
    exact nofun
  | cons a as ih =>
    rw [List.mapM_cons] at h
    obtain ⟨b, hb, h⟩ := bind_eq_ok.mp h
    obtain ⟨rest, hrest, h⟩ := bind_eq_ok.mp h
    cases h
    refine List.forall_mem_cons.mpr ⟨⟨a, List.mem_cons_self, hb⟩, fun b' hb' => ?_⟩
    obtain ⟨a', ha', h⟩ := ih hrest b' hb'
    exact ⟨a', List.mem_cons_of_mem _ ha', h⟩

/-! ## Readers -/

/-- **What the reader makes of proper trees has the property.** -/
def Reader.Yields {α : Type} (r : Reader α) (P : α → Prop) : Prop :=
  ∀ (origin : Origin) (node : Node), node.Proper → ∀ a, r origin node = .ok a → P a

namespace Reader.Yields

variable {α β : Type} {P : α → Prop} {r : Reader α}

/-- What is made of a text has the property. -/
theorem ofText (h : r.Yields P) {text : String} {a : α} (read : r.ofText text = .ok a) : P a :=
  h .running _ (Document.proper_ofText text) a (ofText_eq_ok.mp read).2

/-- Of some values nothing is asked. -/
theorem any : r.Yields fun _ => True :=
  fun _ _ _ _ _ => trivial

/-- **The numbers that are read are finite.** -/
theorem real : Reader.real.Yields fun x => Number.isFinite x = true := by
  intro origin node hnode x read
  match node, hnode with
  | .real y, .real finite =>
    cases read
    exact finite
  | .integer n, .integer small =>
    cases read
    exact Number.isFinite_ofInt small

theorem optional (h : r.Yields P) : (Reader.optional r).Yields fun o => ∀ a ∈ o, P a := by
  intro origin node hnode o read
  rw [Reader.optional.eq_def] at read
  split at read
  · cases read
    exact fun a ha => absurd ha (Option.not_mem_none a)
  · obtain ⟨a, hread, rfl⟩ := map_eq_ok.mp read
    intro a' ha'
    cases ha'
    exact h origin node hnode a hread

/-- Every value of a map has the property. -/
theorem map (h : r.Yields P) : (Reader.map r).Yields fun ix => ∀ e ∈ ix.entries, P e.2 := by
  intro origin node hnode ix read
  match node, hnode with
  | .table members closed, .table _ each =>
    obtain ⟨entries, hentries, hfinished⟩ := bind_eq_ok.mp read
    obtain ⟨-, rfl⟩ := finished_eq_ok.mp hfinished
    intro e he
    obtain ⟨m, hm, hmember⟩ := mem_of_mapM_eq_ok hentries e (Index.mem_ofList he)
    rw [mapMember.eq_def] at hmember
    split at hmember
    · cases hmember
    · rename_i name node
      split at hmember
      · rename_i a hread
        cases hmember
        exact h origin node (each _ hm) a hread
      · cases hmember

/-- A variant without members. -/
theorem unit {a : α} (h : P a) : (Record.unit a).Yields P := by
  intro origin node hnode b read
  rw [Record.unit.eq_def] at read
  split at read
  · cases read
  · cases read
    exact h

end Reader.Yields

/-! ## Records -/

/-- What a slot holds is proper. -/
def Slot.Proper : Slot → Prop
  | .member _ node | .item node => node.Proper
  | .missing | .short _ | .cut => True

/-- What the record makes of proper values has the property. -/
def Record.Yields {α : Type} (r : Record α) (P : α → Prop) : Prop :=
  ∀ (origin : Origin) (slot : String → Slot), (∀ name, (slot name).Proper) →
    ∀ a, r.build origin slot = .ok a → P a

namespace Record.Yields

variable {α β : Type} {P : α → Prop} {Q : β → Prop}

theorem map {r : Record α} (h : r.Yields P) {f : α → β} (hf : ∀ a, P a → Q (f a)) :
    (f <$> r).Yields Q := by
  intro origin slot hslot b read
  obtain ⟨a, hread, rfl⟩ := map_eq_ok.mp read
  exact hf a (h origin slot hslot a hread)

theorem seq {f : Record (α → β)} {r : Record α} (hf : f.Yields fun g => ∀ a, P a → Q (g a))
    (h : r.Yields P) : (f <*> r).Yields Q := by
  intro origin slot hslot b read
  obtain ⟨g, hg, read⟩ := bind_eq_ok.mp read
  obtain ⟨a, ha, read⟩ := bind_eq_ok.mp read
  cases read
  exact hf origin slot hslot g hg a (h origin slot hslot a ha)

theorem under_eq_ok {name : String} {a : Except Fault α} {b : α} (h : under name a = .ok b) :
    a = .ok b := by
  match a, h with
  | .ok _, h => exact h

/-- A single field; what stands in for it has to have the property too. -/
theorem field {name : String} {aliases : List String} {r : Reader α} {missing : Except Fault α}
    {short : Cause → Except Fault α} (h : r.Yields P) (hmissing : ∀ a, missing = .ok a → P a)
    (hshort : ∀ cause a, short cause = .ok a → P a) :
    (Record.field name aliases r missing short).Yields P := by
  intro origin slot hslot a read
  have hproper := hslot name
  simp only [Record.field] at read
  split at read <;> rename_i hs
  · rw [hs] at hproper
    exact h origin _ hproper a (under_eq_ok read)
  · rw [hs] at hproper
    exact h origin _ hproper a read
  · exact hmissing a read
  · exact hshort _ a read
  · cases read

theorem required {name : String} {r : Reader α} (h : r.Yields P) :
    (Record.required name r).Yields P :=
  field h nofun nofun

theorem defaulted {name : String} {value : α} {r : Reader α} (hvalue : P value) (h : r.Yields P) :
    (Record.defaulted name value r).Yields P := by
  refine field h (fun a ha => ?_) fun _ a ha => ?_
  · cases ha
    exact hvalue
  · cases ha
    exact hvalue

/-- **The reader of a record**, given as a table or as a list. -/
theorem reader {r : Record α} (h : r.Yields P) (title : String) : (r.reader title).Yields P := by
  intro origin node hnode a read
  match node, hnode with
  | .table members closed, .table _ each =>
    obtain ⟨-, -, read⟩ := bind_eq_ok.mp read
    obtain ⟨-, -, read⟩ := bind_eq_ok.mp read
    refine h origin _ (fun name => ?_) a read
    rw [slotOfMembers]
    split
    · rename_i hfind
      exact each _ (List.mem_of_find?_eq_some hfind)
    · exact trivial
  | .list items closed, .list _ each =>
    obtain ⟨b, hread, read⟩ := bind_eq_ok.mp read
    have hb : P b := by
      refine h origin _ (fun name => ?_) b hread
      rw [slotOfItems]
      split
      · rename_i hitem
        exact each _ (List.mem_of_getElem? hitem)
      · split <;> exact trivial
    split at read
    · cases read
    · obtain ⟨-, rfl⟩ := Reader.finished_eq_ok.mp read
      exact hb

end Record.Yields

end Stylus
