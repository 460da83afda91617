import Stylus.Proofs.Protocol.Numbers

/-!
# Requests read back

A client writes an envelope as a document on one line.  Is the same envelope read from it?  The name
and the texts come back as they are, whatever characters are in them, and so do axes and sides; what
was not said is written as `null` and read as not said.  Only a number is as good as its digits
(`Number.reread?`), so those of the request have to come back.

* `Request.numbers` — the numbers that a request says;
* `Request.variant_arguments` — what a request says besides its name is read by the reader of that
  name;
* `Envelope.ofLine_compact` — so the line of an envelope is read as the envelope;
* `Envelope.survives_the_wire` — **every envelope comes back, and so does what was read of a line**.
-/

set_option autoImplicit false

namespace Stylus

/-! ## What a request says -/

/-- The number is read where it was written. -/
def Number.Carried (x : Float) : Prop :=
  Number.isFinite x = true → Number.reread? x = some x

namespace Request

/-- The numbers that a request says. -/
def numbers : Request → List Float
  | moveAbsolute _ v | moveRelative _ v => [v]
  | moveToPosition target =>
    target.x.toList ++ target.y.toList ++ target.z.toList ++ target.e.toList
  | learn _ _ _ x y => x.toList ++ y.toList
  | _ => []

theorem Finite.numbers {request : Request} (h : request.Finite) :
    ∀ x ∈ request.numbers, Number.isFinite x = true := by
  match request, h with
  | moveAbsolute _ v, h | moveRelative _ v, h => exact List.forall_mem_singleton.2 h
  | moveToPosition target, h =>
    simp only [Request.numbers, List.forall_mem_append, Option.mem_toList]
    exact ⟨⟨⟨h.x, h.y⟩, h.z⟩, h.e⟩
  | learn _ _ _ x y, h =>
    simp only [Request.numbers, List.forall_mem_append, Option.mem_toList]
    exact h
  | tap, _ | home, _ | off, _ | info, _ | load, _ | runScript _ _ _ _, _ | pauseScript, _
  | resumeScript, _ | stopScript, _ | getStatus, _ | getPosition, _ | getState, _ | listScripts, _
  | listLayouts, _ => exact nofun

/-- No argument goes by the name of the reply or by the name of the request. -/
theorem arguments_ne {request : Request} {m : String × Json} (hm : m ∈ request.arguments) :
    m.1 ≠ "id" ∧ m.1 ≠ "cmd" := by
  suffices h : ∀ name ∈ request.arguments.map Prod.fst, name ≠ "id" ∧ name ≠ "cmd" from
    h m.1 (List.mem_map_of_mem hm)
  cases request <;> simp [arguments]

end Request

/-! ## What is read of it -/

section values

variable {origin : Origin}

theorem Reader.real_node (origin : Origin) {x : Float} (h : Number.reread? x = some x) :
    Reader.real origin (Json.real x).node = .ok x :=
  toOption_eq_some.1 ((Number.reread?_eq x).symm.trans h)

theorem Reader.optionalReal_node {x : Option Float}
    (h : ∀ v ∈ x.toList, Number.reread? v = some v) :
    Reader.optional Reader.real origin (Json.optionalReal x).node = .ok x := by
  match x, h with
  | none, _ => rfl
  | some v, h =>
    have hread := real_node origin (h v List.mem_cons_self)
    refine optional_of_ok (fun hnull => ?_) hread
    rw [show (Json.optionalReal (some v)).node = (Json.real v).node from rfl] at hnull
    rw [hnull] at hread
    cases hread

theorem Reader.text_node (s : String) : Reader.text origin (Json.text s).node = .ok s := by
  rw [Json.node]
  rfl

theorem Reader.optionalText_node (s : Option String) :
    Reader.optional Reader.text origin (Json.optionalText s).node = .ok s := by
  cases s <;> rfl

theorem Axis.reader_node (axis : Axis) : Axis.reader origin axis.toJson.node = .ok axis := by
  have hname : Text.upperAscii (Text.trim axis.name) = axis.name := by cases axis <;> decide +kernel
  have hword : ofWord axis.name = .ok axis := by
    rw [ofWord, hname]
    cases axis <;> rfl
  refine Reader.refine_eq_ok.2 ⟨axis.name, ?_, by rw [hword]⟩
  rw [toJson, Json.node]
  rfl

theorem Side.reader_node (side : Side) : Side.reader origin side.toJson.node = .ok side := by
  cases side <;> rfl

theorem Side.optional_node (side : Option Side) :
    Reader.optional Side.reader origin (Request.optionalSide side).node = .ok side := by
  match side with
  | none => rfl
  | some .left | some .right => rfl

end values

namespace Request

theorem variant_eq_ok {record : Record Request} (held : List (String × Option Node))
    {request : Request} (h : record.Makes .held held (some request)) (distinct : record.Distinct)
    (name : String) :
    variant name record .held (.table (Record.membersOf held) true) = .ok request :=
  toOption_eq_some.1 (h.reader distinct _)

/-- A position or a distance along an axis. -/
theorem reads_along {f : Axis → Float → Request} (title name : String) (hname : name ≠ "axis")
    (axis : Axis) {v : Float} (hv : Number.reread? v = some v) :
    variant title (f <$> Record.required "axis" Axis.reader <*> Record.required name Reader.real)
        .held (.table [(some "axis", axis.toJson.node), (some name, (Json.real v).node)] true) =
      .ok (f axis v) := by
  refine variant_eq_ok ([("axis", some _)] ++ [(name, some _)]) ?_ ?_ title
  · exact ((Record.Makes.read axis.reader_node).map f).seq (.read (Reader.real_node .held hv))
  · have hdistinct : ["axis", name].Nodup := by simp [Ne.symm hname]
    exact hdistinct

theorem reads_moveToPosition {target : MoveTarget}
    (hx : ∀ v ∈ target.x.toList, Number.reread? v = some v)
    (hy : ∀ v ∈ target.y.toList, Number.reread? v = some v)
    (hz : ∀ v ∈ target.z.toList, Number.reread? v = some v)
    (he : ∀ v ∈ target.e.toList, Number.reread? v = some v) (title : String) :
    variant title ((fun x y z e => moveToPosition { x, y, z, e }) <$> optionalReal "x"
          <*> optionalReal "y" <*> optionalReal "z" <*> optionalReal "e")
        .held (.table (Json.memberNodes (moveToPosition target).arguments) true) =
      .ok (moveToPosition target) := by
  refine variant_eq_ok ([("x", some _)] ++ [("y", some _)] ++ [("z", some _)]
    ++ [("e", some _)]) ?_ ?_ title
  · exact ((((Record.Makes.read (Reader.optionalReal_node hx)).map _).seq
      (.read (Reader.optionalReal_node hy))).seq (.read (Reader.optionalReal_node hz))).seq
      (.read (Reader.optionalReal_node he))
  · decide

theorem reads_runScript (script : String) (left right : Option String) (side : Option Side)
    (title : String) :
    variant title (runScript <$> Record.required "script" Reader.text <*> optionalText "layout_left"
          <*> optionalText "layout_right"
          <*> Record.defaulted "side" none (Reader.optional Side.reader))
        .held (.table (Json.memberNodes (runScript script left right side).arguments) true) =
      .ok (runScript script left right side) := by
  refine variant_eq_ok ([("script", some _)] ++ [("layout_left", some _)]
    ++ [("layout_right", some _)] ++ [("side", some _)]) ?_ ?_ title
  · exact ((((Record.Makes.read (Reader.text_node script)).map _).seq
      (.read (Reader.optionalText_node left))).seq (.read (Reader.optionalText_node right))).seq
      (.read (Side.optional_node side))
  · decide

theorem reads_learn (layout : String) (side : Side) (position : String) {x y : Option Float}
    (hx : ∀ v ∈ x.toList, Number.reread? v = some v)
    (hy : ∀ v ∈ y.toList, Number.reread? v = some v) (title : String) :
    variant title (learn <$> Record.required "layout" Reader.text
          <*> Record.required "side" Side.reader <*> Record.required "position" Reader.text
          <*> optionalReal "x" <*> optionalReal "y")
        .held (.table (Json.memberNodes (learn layout side position x y).arguments) true) =
      .ok (learn layout side position x y) := by
  refine variant_eq_ok ([("layout", some _)] ++ [("side", some _)] ++ [("position", some _)]
    ++ [("x", some _)] ++ [("y", some _)]) ?_ ?_ title
  · exact (((((Record.Makes.read (Reader.text_node layout)).map _).seq
      (.read side.reader_node)).seq (.read (Reader.text_node position))).seq
      (.read (Reader.optionalReal_node hx))).seq (.read (Reader.optionalReal_node hy))
  · decide

/-- **What a request says besides its name is read** by the reader that goes by this name. -/
theorem variant_arguments {request : Request}
    (back : ∀ x ∈ request.numbers, Number.reread? x = some x) :
    ∃ v, Reader.named? tagged.variants request.name = some v ∧
      v .held (.table (Json.memberNodes request.arguments) true) = .ok request := by
  match request, back with
  | tap, _ | home, _ | off, _ | info, _ | load, _ | pauseScript, _ | resumeScript, _
  | stopScript, _ | getStatus, _ | getPosition, _ | getState, _ | listScripts, _
  | listLayouts, _ => exact ⟨_, rfl, rfl⟩
  | moveAbsolute axis v, back =>
    exact ⟨_, rfl, reads_along "MoveAbsolute" "position" (by decide) axis
      (back v List.mem_cons_self)⟩
  | moveRelative axis v, back =>
    exact ⟨_, rfl, reads_along "MoveRelative" "distance" (by decide) axis
      (back v List.mem_cons_self)⟩
  | moveToPosition target, back =>
    simp only [numbers, List.forall_mem_append] at back
    obtain ⟨⟨⟨hx, hy⟩, hz⟩, he⟩ := back
    exact ⟨_, rfl, reads_moveToPosition hx hy hz he "MoveToPosition"⟩
  | runScript script left right side, _ =>
    exact ⟨_, rfl, reads_runScript script left right side "RunScript"⟩
  | learn layout side position x y, back =>
    simp only [numbers, List.forall_mem_append] at back
    exact ⟨_, rfl, reads_learn layout side position back.1 back.2 "Learn"⟩

/-- A value that is read as a number can be held in memory. -/
theorem isSound_of_real {origin : Origin} {node : Node} {x : Float}
    (h : Reader.real origin node = .ok x) (depth : Nat) : node.isSound depth = true := by
  match node, h with
  | .real _, _ | .integer _, _ => rfl

theorem isSound_optionalReal {x : Option Float} (h : ∀ v ∈ x.toList, Number.reread? v = some v)
    (depth : Nat) : (Json.optionalReal x).node.isSound depth = true := by
  match x, h with
  | none, _ => rfl
  | some v, h =>
    exact isSound_of_real (Reader.real_node .held (h v List.mem_cons_self)) depth

theorem isSound_optionalText (s : Option String) (depth : Nat) :
    (Json.optionalText s).node.isSound depth = true := by
  cases s <;> rfl

theorem isSound_optionalSide (side : Option Side) (depth : Nat) :
    (optionalSide side).node.isSound depth = true := by
  cases side <;> rfl

/-- All that a request says can be held in memory. -/
theorem isSound_arguments {request : Request}
    (back : ∀ x ∈ request.numbers, Number.reread? x = some x) (depth : Nat) :
    ∀ m ∈ request.arguments, m.2.node.isSound depth = true := by
  have htext (s : String) : (Json.text s).node.isSound depth = true := rfl
  match request, back with
  | tap, _ | home, _ | off, _ | info, _ | load, _ | pauseScript, _ | resumeScript, _
  | stopScript, _ | getStatus, _ | getPosition, _ | getState, _ | listScripts, _
  | listLayouts, _ => exact nofun
  | moveAbsolute axis v, back | moveRelative axis v, back =>
    have hv := isSound_of_real (Reader.real_node .held (back v List.mem_cons_self)) depth
    simp only [arguments, List.forall_mem_cons]
    exact ⟨htext _, hv, nofun⟩
  | moveToPosition target, back =>
    simp only [numbers, List.forall_mem_append] at back
    obtain ⟨⟨⟨hx, hy⟩, hz⟩, he⟩ := back
    simp only [arguments, List.forall_mem_cons]
    exact ⟨isSound_optionalReal hx _, isSound_optionalReal hy _, isSound_optionalReal hz _,
      isSound_optionalReal he _, nofun⟩
  | runScript script left right side, _ =>
    simp only [arguments, List.forall_mem_cons]
    exact ⟨htext _, isSound_optionalText _ _, isSound_optionalText _ _, isSound_optionalSide _ _,
      nofun⟩
  | learn layout side position x y, back =>
    simp only [numbers, List.forall_mem_append] at back
    simp only [arguments, List.forall_mem_cons]
    exact ⟨htext _, htext _, htext _, isSound_optionalReal back.1 _, isSound_optionalReal back.2 _,
      nofun⟩

/-- The members of a request, as they are read. -/
theorem memberNodes_members (request : Request) :
    Json.memberNodes request.members =
      (some "cmd", .text request.name) :: Json.memberNodes request.arguments := by
  rw [members, Json.memberNodes, Json.node]

theorem ne_of_mem_arguments {request : Request} {m : Option String × Node}
    (hm : m ∈ Json.memberNodes request.arguments) : m.1 ≠ some "id" ∧ m.1 ≠ some "cmd" := by
  rw [Json.memberNodes_eq_map] at hm
  obtain ⟨argument, hargument, rfl⟩ := List.mem_map.1 hm
  obtain ⟨hid, hcmd⟩ := arguments_ne hargument
  exact ⟨fun h => hid (Option.some.inj h), fun h => hcmd (Option.some.inj h)⟩

/-- **A request that is held in memory is read** as it was written. -/
theorem reader_members {request : Request}
    (back : ∀ x ∈ request.numbers, Number.reread? x = some x) :
    reader .held (.table (Json.memberNodes request.members) true) = .ok request := by
  obtain ⟨v, hnamed, hread⟩ := variant_arguments back
  have hothers : ∀ m ∈ Json.memberNodes request.arguments, m.1 ≠ some "cmd" :=
    fun m hm => (ne_of_mem_arguments hm).2
  have hsound := isSound_arguments back Reader.heldDepth
  have htag : tagged.tag = "cmd" := rfl
  rw [memberNodes_members]
  refine Tagged.reader_table_eq_ok.2 ⟨v, ⟨?_, ?_, ?_⟩, rfl, ?_⟩
  · refine List.forall_mem_cons.2 ⟨rfl, ?_⟩
    rw [Json.memberNodes_eq_map]
    exact List.forall_mem_map.2 fun _ _ => rfl
  · refine List.forall_mem_cons.2 ⟨fun hne => absurd rfl hne, ?_⟩
    rw [Json.memberNodes_eq_map]
    exact List.forall_mem_map.2 fun m hm _ => hsound m hm
  · rw [htag, Reader.under_cons_same, Reader.under_eq_nil hothers]
    refine .found ?_
    rw [Tagged.variant, Reader.pick, hnamed]
  · rw [htag, Reader.without_cons_same, Reader.without_eq_self hothers]
    exact hread

end Request

namespace Envelope

/-- **The line of an envelope is read as the envelope**, if its numbers come back. -/
theorem ofLine_compact {e : Envelope}
    (back : ∀ x ∈ e.request.numbers, Number.reread? x = some x) :
    ofLine e.toJson.compact = .ok e := by
  have hnode : e.toJson.node =
      .table ((some "id", (Json.optionalText e.id).node) :: Json.memberNodes e.request.members)
        true := by
    rw [toJson, Json.node, Json.memberNodes]
  have hothers : ∀ m ∈ Json.memberNodes e.request.members, m.1 ≠ some "id" := by
    rw [Request.memberNodes_members]
    exact List.forall_mem_cons.2 ⟨by simp, fun m hm => (Request.ne_of_mem_arguments hm).1⟩
  have hsound := Request.isSound_arguments back Reader.heldDepth
  have hnamed : named .running e.toJson.node = .ok e := by
    rw [hnode]
    refine named_table_eq_ok.2 ⟨some e.id, ⟨?_, ?_, ?_⟩, rfl, rfl, ?_⟩
    · refine List.forall_mem_cons.2 ⟨rfl, ?_⟩
      rw [Json.memberNodes_eq_map]
      exact List.forall_mem_map.2 fun _ _ => rfl
    · refine List.forall_mem_cons.2 ⟨fun hne => absurd rfl hne, ?_⟩
      rw [Request.memberNodes_members, Json.memberNodes_eq_map]
      refine List.forall_mem_cons.2 ⟨fun _ => rfl, ?_⟩
      exact List.forall_mem_map.2 fun m hm _ => hsound m hm
    · rw [Reader.under_cons_same, Reader.under_eq_nil hothers]
      exact .found (Reader.optionalText_node e.id)
    · rw [Reader.without_cons_same, Reader.without_eq_self hothers]
      exact Request.reader_members back
  rw [ofLine, Reader.ofText_compact, hnamed]

/-- **Every envelope survives the wire**, if its numbers are finite and the digits of each are those
of no other number.  What was read of a line was an envelope with finite numbers, so it comes back
as well, whatever the line looked like. -/
theorem survives_the_wire :
    (∀ e : Envelope, e.request.Finite → (∀ x ∈ e.request.numbers, Number.Carried x) →
      ofLine e.toJson.compact = .ok e) ∧
    ∀ (line : String) (e : Envelope), ofLine line = .ok e →
      (∀ x ∈ e.request.numbers, Number.Carried x) → ofLine e.toJson.compact = .ok e := by
  have hback : ∀ e : Envelope, e.request.Finite → (∀ x ∈ e.request.numbers, Number.Carried x) →
      ofLine e.toJson.compact = .ok e := by
    intro e hfinite hcarried
    exact ofLine_compact fun x hx => hcarried x hx (hfinite.numbers x hx)
  exact ⟨hback, fun line e hread hcarried => hback e (finite_of_ofLine hread) hcarried⟩

/-- A request with a line break and a quote in its name and with one coordinate given, and a line
without a name that spells a distance in another way. -/
theorem survives_the_wire_learn :
    let learning : Envelope := ⟨some "a\"\n", .learn "pad" .right "ok" (some 1.5) none⟩
    let line := "\x7b\"cmd\": \"move_relative\", \"distance\": 25e-1, \"axis\": \" y \"\x7d"
    Number.Carried 1.5 ∧ ofLine learning.toJson.compact = .ok learning ∧
      ∃ moving, ofLine line = .ok moving ∧ moving.request.numbers = [2.5] ∧
        Number.Carried 2.5 ∧ ofLine moving.toJson.compact = .ok moving := by
  intro learning line
  have hcarried : Number.Carried 1.5 ∧ Number.Carried 2.5 := by
    exact ⟨fun _ => by decide +kernel, fun _ => by decide +kernel⟩
  have hfinite : Number.isFinite 1.5 = true := by decide +kernel
  have hread : (ofLine line).toOption.map (fun e => e.request.numbers) = some [2.5] := by
    decide +kernel
  obtain ⟨moving, hmoving, hnumbers⟩ := Option.map_eq_some_iff.1 hread
  have hmoving := toOption_eq_some.1 hmoving
  refine ⟨hcarried.1, ?_, moving, hmoving, hnumbers, hcarried.2, ?_⟩
  · refine survives_the_wire.1 learning ⟨?_, nofun⟩ (List.forall_mem_singleton.2 hcarried.1)
    exact fun v hv => Option.mem_some.1 hv ▸ hfinite
  · refine survives_the_wire.2 line moving hmoving ?_
    rw [hnumbers]
    exact List.forall_mem_singleton.2 hcarried.2

end Envelope

end Stylus
