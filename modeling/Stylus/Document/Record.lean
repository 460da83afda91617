import Stylus.Document.Reader

/-!
# Records

A `Record` is the shape of a table with known members: which names it knows, and how to make a value
of what they hold.  Records are put together from single fields with `<$>` and `<*>`; the order of
the fields is the order in which missing ones are reported, and the order of the items when a record
is given as a list.

* `required`, `optional`, `defaulted` — single fields;
* `Record.reader` — the reader of a record, given as a table or as a list;
* `tagged` — a choice among records, made by a member that names it.

A table is read member by member: an unknown name is skipped, a name met twice is refused before its
second value is looked at, and every value is read before missing members are noticed.
-/

set_option autoImplicit false

namespace Stylus

/-- The place of a field in a record at hand. -/
inductive Slot where
  | member (name : String) (node : Node)
  | item (node : Node)
  /-- a table without the member -/
  | missing
  /-- a list that ends before the item -/
  | short (cause : Cause)
  /-- a list that is cut off before the item -/
  | cut

/-- A name that a record knows, other names for it, and the test of its value. -/
structure Field where
  name : String
  aliases : List String
  check : Reader Unit

namespace Field

/-- The field goes by this name. -/
def answersTo (f : Field) (name : String) : Bool :=
  f.name = name || f.aliases.contains name

end Field

/-- The shape of a table with known members. -/
structure Record (α : Type) where
  fields : List Field
  build : Origin → (String → Slot) → Except Fault α

namespace Record

variable {α β : Type}

instance : Functor Record where
  map f r := { r with build := fun origin slot => (r.build origin slot).map f }

instance : Applicative Record where
  pure a := ⟨[], fun _ _ => .ok a⟩
  seq f r :=
    ⟨f.fields ++ (r ()).fields, fun origin slot => do
      let g ← f.build origin slot
      let a ← (r ()).build origin slot
      return g a⟩

/-! ## Single fields -/

/-- The value of a field under its name. -/
def under (name : String) : Except Fault α → Except Fault α
  | .ok a => .ok a
  | .error f => .error (f.under name)

/-- A single field; `missing` and `short` are what it is if the record does not have it. -/
def field (name : String) (aliases : List String) (r : Reader α) (missing : Except Fault α)
    (short : Cause → Except Fault α) : Record α where
  fields := [⟨name, aliases, fun origin node => (r origin node).map fun _ => ()⟩]
  build origin slot :=
    match slot name with
    | .member given node => under given (r origin node)
    | .item node => r origin node
    | .missing => missing
    | .short cause => short cause
    | .cut => Reader.fault .malformed

/-- A field that must be there. -/
def required (name : String) (r : Reader α) : Record α :=
  field name [] r (Reader.fault (.missingField name)) Reader.fault

/-- A field that a table may leave out. -/
def optional (name : String) (r : Reader α) : Record (Option α) :=
  field name [] (Reader.optional r) (.ok none) Reader.fault

/-- A field with a value to fall back on, in tables and in lists. -/
def defaulted (name : String) (value : α) (r : Reader α) : Record α :=
  field name [] r (.ok value) fun _ => .ok value

/-- The same field under a second name. -/
def aliased (other : String) (r : Record α) : Record α :=
  { r with fields := r.fields.map fun f => { f with aliases := other :: f.aliases } }

/-! ## Tables -/

/-- The field that goes by a name. -/
def find? (r : Record α) (name : String) : Option Field :=
  r.fields.find? (·.answersTo name)

/-- The members in order, each one tested; `seen` are the fields met before. -/
def checkMembers (r : Record α) (origin : Origin) :
    List String → List (Option String × Node) → Except Fault Unit
  | _, [] => .ok ()
  | _, (none, _) :: _ => Reader.fault .malformed
  | seen, (some name, node) :: rest =>
    match r.find? name with
    | none => do
      Reader.skip origin node
      checkMembers r origin seen rest
    | some f =>
      if seen.contains f.name then Reader.fault (.duplicateField f.name)
      else do
        under name (f.check origin node)
        checkMembers r origin (f.name :: seen) rest

/-- What the members hold for a field. -/
def slotOfMembers (r : Record α) (members : List (Option String × Node)) (field : String) : Slot :=
  let isField : Option String × Node → Bool := fun member =>
    match member.1.bind r.find? with
    | some f => f.name = field
    | none => false
  match members.find? isField with
  | some (some name, node) => .member name node
  | _ => .missing

/-- A record given as a table. -/
def ofMembers (r : Record α) (origin : Origin) (members : List (Option String × Node))
    (closed : Bool) : Except Fault α := do
  r.checkMembers origin [] members
  Reader.finished closed ()
  r.build origin (r.slotOfMembers members)

/-! ## Lists -/

/-- A number of items. -/
def elements (n : Nat) : String :=
  if n = 1 then "1 element" else s!"{n} elements"

/-- What the items hold for a field: the item at the field's place. -/
def slotOfItems (r : Record α) (title : String) (items : List Node) (closed : Bool)
    (field : String) : Slot :=
  let count := r.fields.length
  let place := r.fields.findIdx (·.name = field)
  match items[place]? with
  | some node => .item node
  | none =>
    if closed then .short (.invalidLength place (title ++ " with " ++ elements count))
    else .cut

/-- Items beyond the last field. -/
def excess (origin : Origin) (given expected : Nat) : Cause :=
  match origin with
  | .running => .malformed
  | .held => .invalidLength given (elements expected ++ " in sequence")
  | .settings => .invalidLength given "fewer elements in array"

/-- A record given as a list. -/
def ofItems (r : Record α) (title : String) (origin : Origin) (items : List Node)
    (closed : Bool) : Except Fault α := do
  let a ← r.build origin (r.slotOfItems title items closed)
  if r.fields.length < items.length then Reader.fault (excess origin items.length r.fields.length)
  else Reader.finished closed a

/-- The reader of a record; `title` is what the record is called in faults. -/
def reader (title : String) (r : Record α) : Reader α := fun origin node =>
  match node with
  | .table members closed => r.ofMembers origin members closed
  | .list items closed => r.ofItems title origin items closed
  | node => Reader.mismatch title node

/-! ## Tagged choices -/

/-- A variant without members: whatever members there are do not count, but items do. -/
def unit (a : α) : Reader α := fun origin node =>
  match node with
  | .list (_ :: rest) _ => Reader.fault (excess origin (rest.length + 1) 0)
  | _ => .ok a

end Record

/-- A choice among readers, made by the value of the member `tag`. -/
structure Tagged (α : Type) where
  tag : String
  title : String
  variants : List (String × Reader α)

namespace Tagged

variable {α : Type}

/-- The variant that a tag names.  In a document held in memory its number will do too. -/
def variant (t : Tagged α) (origin : Origin) : Node → Except Fault (Reader α)
  | .text s => Reader.pick t.variants s
  | .integer n =>
    if origin = .held ∧ 0 ≤ n then
      match t.variants[n.toNat]? with
      | some v => .ok v.2
      | none =>
        Reader.fault (.invalidValue (.integer n) s!"variant index 0 <= i < {t.variants.length}")
    else Reader.fault (.invalidType (.integer n) "variant identifier")
  | node => Reader.mismatch "variant identifier" node

/-- The variant that the members name, and the other members.  All of them are held in memory, but a
tag that is no tag and a second tag are refused on sight. -/
def split (t : Tagged α) (origin : Origin) :
    Option (Reader α) → List (Option String × Node) →
      Except Fault (Option (Reader α) × List (Option String × Node))
  | chosen, [] => .ok (chosen, [])
  | _, (none, _) :: _ => Reader.fault .malformed
  | chosen, (some name, node) :: rest => do
    if name = t.tag then
      if chosen.isSome then Reader.fault (.duplicateField t.tag)
      else
        let v ← t.variant origin node
        t.split origin (some v) rest
    else
      let node ← Reader.hold origin node
      let (chosen, rest) ← t.split origin chosen rest
      return (chosen, (some name, node) :: rest)

/-- The reader of a tagged choice: a table with the tag among its members, or a list with the tag in
front. -/
def reader (t : Tagged α) : Reader α := fun origin node =>
  match node with
  | .table members closed => do
    let (chosen, rest) ← t.split origin none members
    Reader.finished closed ()
    match chosen with
    | some v => v .held (.table rest true)
    | none => Reader.fault (.missingField t.tag)
  | .list [] closed => do
    Reader.finished closed ()
    Reader.fault (.missingField t.tag)
  | .list (first :: rest) closed => do
    let v ← t.variant origin first
    let rest ← rest.mapM (Reader.hold origin)
    Reader.finished closed ()
    v .held (.list rest true)
  | node => Reader.mismatch t.title node

end Tagged

end Stylus
