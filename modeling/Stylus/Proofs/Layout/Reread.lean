import Stylus.Layout.Basic
import Stylus.Proofs.Document.Record
import Stylus.Proofs.Index

/-!
# Layouts read back

A layout is written as a document and read back from it.  Names, sides and the order of the members
come back as they are; a coordinate comes back as what its digits are read as (`Number.reread?`),
and if one of them cannot be read then nothing comes back at all.

* `Point.reread?`, `SidePositions.reread?` — what is read where something else was written;
* `SidePositions.get?_reread` — what is then found on a side;
* `Layout.reader_node` — so a layout is read back.
-/

set_option autoImplicit false

namespace Stylus

/-! ## Points and positions -/

/-- The point that is read where a point was written. -/
def Point.reread? (p : Point) : Option Point :=
  (Number.reread? p.x).bind fun x => (Number.reread? p.y).map fun y => ⟨x, y⟩

/-- A point comes back as itself if both of its coordinates do. -/
theorem Point.reread?_eq_self {p : Point} :
    p.reread? = some p ↔ Number.reread? p.x = some p.x ∧ Number.reread? p.y = some p.y := by
  simp only [reread?, Option.bind_eq_some_iff, Option.map_eq_some_iff]
  constructor
  · rintro ⟨x, hx, y, hy, rfl⟩
    exact ⟨hx, hy⟩
  · rintro ⟨hx, hy⟩
    exact ⟨p.x, hx, p.y, hy, rfl⟩

/-- A point with a coordinate that is infinite or undefined does not come back. -/
theorem Point.reread?_of_not_finite {p : Point}
    (h : Number.isFinite p.x = false ∨ Number.isFinite p.y = false) : p.reread? = none := by
  rw [reread?]
  rcases h with hx | hy
  · rw [Number.reread?_of_not_finite hx]
    rfl
  · rw [Number.reread?_of_not_finite hy]
    cases Number.reread? p.x <;> rfl

theorem Point.reader_node (p : Point) (origin : Origin) (title : String) :
    (Point.record.reader title origin p.toJson.node).toOption = p.reread? := by
  have hnode : p.toJson.node =
      .table [(some "x", .ofNumber (Json.realText p.x)), (some "y", .ofNumber (Json.realText p.y))]
        true := by
    rw [Point.toJson, Json.node, Json.memberNodes_eq_map]
    simp [Json.node]
  rw [hnode, Point.reread?, Number.reread?_eq, Number.reread?_eq]
  exact Record.reader_pair (show "x" ≠ "y" by decide) title origin _ _

namespace SidePositions

/-- The positions that are read where others were written. -/
def reread? (positions : SidePositions) : Option SidePositions :=
  (positions.left.mapM? Point.reread?).bind fun left =>
    (positions.right.mapM? Point.reread?).map fun right => ⟨left, right⟩

theorem indexReader_node (ix : Index Point) (origin : Origin) :
    (indexReader origin (indexJson ix).node).toOption = ix.mapM? Point.reread? := by
  have hnode : (indexJson ix).node =
      .table (ix.entries.map fun e => (some e.1, e.2.toJson.node)) true := by
    rw [indexJson, Json.node, Json.memberNodes_eq_map, List.map_map]
    rfl
  rw [hnode, indexReader, Reader.map, toOption_bind, toOption_mapM, List.mapM_map, Index.mapM?,
    Index.mapEntries?]
  have hmember : ∀ e : String × Point,
      (Reader.mapMember (Point.record.reader "struct Point") origin
        (some e.1, e.2.toJson.node)).toOption = e.2.reread?.map (e.1, ·) := by
    intro e
    rw [Reader.mapMember, ← e.2.reader_node origin "struct Point"]
    cases Point.record.reader "struct Point" origin e.2.toJson.node <;> rfl
  simp only [Function.comp_def, hmember]
  exact (Option.map_eq_bind ..).symm

theorem reader_node (positions : SidePositions) (origin : Origin) (title : String) :
    (SidePositions.record.reader title origin positions.toJson.node).toOption =
      positions.reread? := by
  have hnode : positions.toJson.node =
      .table [(some "left", (indexJson positions.left).node),
        (some "right", (indexJson positions.right).node)] true := by
    rw [toJson, Json.node, Json.memberNodes_eq_map]
    rfl
  rw [hnode, reread?, ← indexReader_node positions.left origin,
    ← indexReader_node positions.right origin]
  exact Record.reader_pair (show "left" ≠ "right" by decide) title origin _ _

/-- **What is found on a side** is what was there, read back. -/
theorem get?_reread {positions back : SidePositions} (h : positions.reread? = some back)
    {side : Side} {name : String} {p : Point} (hp : (positions.on side).get? name = some p) :
    ∃ q, p.reread? = some q ∧ (back.on side).get? name = some q := by
  simp only [reread?, Option.bind_eq_some_iff, Option.map_eq_some_iff] at h
  obtain ⟨left, hleft, right, hright, rfl⟩ := h
  cases side with
  | left => exact Index.get?_mapM?_of_get? hleft hp
  | right => exact Index.get?_mapM?_of_get? hright hp

/-- What is found after a position was recorded. -/
theorem get?_on_insert (positions : SidePositions) (side other : Side) (name location : String)
    (p : Point) : ((positions.insert side name p).on other).get? location =
      if other = side ∧ location = name then some p else (positions.on other).get? location := by
  cases side <;> cases other <;> simp [insert, on, Index.get?_insert]

/-- A position that was recorded is found on its side. -/
theorem get?_insert (positions : SidePositions) (side : Side) (name : String) (p : Point) :
    ((positions.insert side name p).on side).get? name = some p := by
  rw [get?_on_insert, if_pos ⟨rfl, rfl⟩]

/-- Positions that come back as they are, each of them. -/
def Durable (positions : SidePositions) : Prop :=
  ∀ side name p, (positions.on side).get? name = some p → p.reread? = some p

theorem Durable.reread {positions : SidePositions} (h : positions.Durable) :
    positions.reread? = some positions := by
  have hleft : positions.left.mapM? Point.reread? = some positions.left :=
    Index.mapM?_eq_self (h .left)
  have hright : positions.right.mapM? Point.reread? = some positions.right :=
    Index.mapM?_eq_self (h .right)
  rw [reread?, hleft, hright]
  rfl

theorem Durable.insert {positions : SidePositions} (h : positions.Durable) (side : Side)
    (name : String) {p : Point} (hp : p.reread? = some p) :
    (positions.insert side name p).Durable := by
  intro other location q hq
  rw [get?_on_insert] at hq
  split at hq
  · cases hq
    exact hp
  · exact h other location q hq

end SidePositions

/-! ## Layouts -/

namespace Layout

/-- **A layout is read back** with its name and with the positions that were read. -/
theorem reader_node (layout : Layout) (origin : Origin) :
    (Layout.reader origin layout.toJson.node).toOption =
      layout.positions.reread?.map fun positions => { name := layout.name, positions } := by
  have hnode : layout.toJson.node =
      .table [(some "name", .text layout.name), (some "positions", layout.positions.toJson.node)]
        true := by
    rw [toJson, Json.node, Json.memberNodes_eq_map]
    simp [Json.node]
  rw [hnode, ← layout.positions.reader_node origin "struct SidePositions"]
  exact Record.reader_pair (show "name" ≠ "positions" by decide) "struct Layout" origin _ _

end Layout

end Stylus
