import Stylus.Proofs.Document.Record
import Stylus.Script.Basic

/-!
# Scripts read back

A script is written as a document, with its steps as lists of words.  What is read from it is the
script, whatever texts are in it.

The words of a step are read by their places: the first names the kind, so many arguments have to
follow (`Step.Shape`), and where a side may come next the word there has to name one.  Whatever
stands behind does not count.

* `Step.Spells` — the words spell a step; `Step.counted` — those that count;
* `Step.ofWords_iff` — **so are words read**, and no others;
* `Script.reader_node` — **a script is read as it was written**.
-/

set_option autoImplicit false

namespace Stylus

/-! ## Sides -/

namespace Side

/-- The word names a side, in letters of any case. -/
def Names (word : String) : Prop :=
  Text.lowerAscii word = "left" ∨ Text.lowerAscii word = "right"

theorem ofWord_eq_ok {word : String} {side : Side} :
    ofWord word = .ok side ↔ Text.lowerAscii word = side.name := by
  rw [ofWord]
  generalize Text.lowerAscii word = lowered
  by_cases hleft : lowered = "left"
  · subst hleft
    cases side <;> simp [Reader.named?, known, name]
  by_cases hright : lowered = "right"
  · subst hright
    cases side <;> simp [Reader.named?, known, name]
  cases side <;> simp [Reader.named?, known, name, Ne.symm hleft, Ne.symm hright, hleft, hright]

theorem names_iff {word : String} : Names word ↔ ∃ side, ofWord word = .ok side := by
  constructor
  · rintro (h | h)
    · exact ⟨left, ofWord_eq_ok.2 h⟩
    · exact ⟨right, ofWord_eq_ok.2 h⟩
  · rintro ⟨side, hside⟩
    have hname := ofWord_eq_ok.1 hside
    match side, hname with
    | left, hname => exact .inl hname
    | right, hname => exact .inr hname

theorem ofWord_name (side : Side) : ofWord side.name = .ok side := by
  refine ofWord_eq_ok.2 ?_
  cases side <;> decide +kernel

end Side

/-! ## Words -/

namespace Step

/-- A kind of step as its words say it: how many arguments it needs, and whether a side may
follow. -/
structure Shape where
  arguments : Nat
  sided : Bool

/-- The kinds of steps by name. -/
def shape? : String → Option Shape
  | "tap" => some ⟨1, true⟩
  | "swipe" => some ⟨2, true⟩
  | "wait" => some ⟨1, false⟩
  | "mark" | "loop" | "load" => some ⟨0, false⟩
  | _ => none

/-- **The words spell a step**: a kind that there is, all of its arguments, and a side that is one
where a side may be given and a word is left. -/
def Spells : List String → Prop
  | [] => False
  | kind :: arguments => ∃ shape, shape? kind = some shape ∧ shape.arguments ≤ arguments.length ∧
      (shape.sided = true → ∀ word ∈ arguments[shape.arguments]?, Side.Names word)

/-- The words that count, the side in small letters. -/
def counted : List String → List String
  | [] => []
  | kind :: arguments =>
    match shape? kind with
    | some shape => kind :: (arguments.take shape.arguments ++
        if shape.sided then arguments[shape.arguments]?.toList.map Text.lowerAscii else [])
    | none => []

/-- The side behind the arguments, if a word is left. -/
theorem sideOf_eq_ok {rest : List String} {side : Option Side} :
    sideOf rest = .ok side ↔
      (∀ word ∈ rest.head?, Side.Names word) ∧
        sideWords side = rest.head?.toList.map Text.lowerAscii := by
  match rest with
  | [] => cases side <;> simp [sideOf, sideWords]
  | word :: _ =>
    simp only [sideOf, List.head?_cons, Option.mem_some, forall_eq', Option.toList_some,
      List.map_cons, List.map_nil, Side.names_iff]
    cases hword : Side.ofWord word with
    | error lowered => simp
    | ok found =>
      have hname := Side.ofWord_eq_ok.1 hword
      cases side with
      | none => simp [sideWords]
      | some side => cases found <;> cases side <;> simp [sideWords, hname, Side.name]

theorem exists_sideOf {rest : List String} (h : ∀ word ∈ rest.head?, Side.Names word) :
    ∃ side, sideOf rest = .ok side := by
  match rest, h with
  | [], _ => exact ⟨none, rfl⟩
  | word :: _, h =>
    obtain ⟨side, hside⟩ := Side.names_iff.1 (h word rfl)
    exact ⟨some side, by rw [sideOf, hside]⟩

/-- What is read of words is what they spell. -/
theorem spells_of_ofWords {ws : List String} {step : Step} (h : ofWords ws = .ok step) :
    Spells ws ∧ step.words = counted ws := by
  have hplain {p : Prop} (h : false = true) : p := absurd h Bool.false_ne_true
  match ws, h with
  | kind :: arguments, h =>
    rw [ofWords, ofArguments.eq_def] at h
    split at h
    · rename_i location rest
      obtain ⟨side, hside, rfl⟩ := map_eq_ok.1 h
      obtain ⟨hnames, hwords⟩ := sideOf_eq_ok.1 hside
      have hrest : (location :: rest)[1]? = rest.head? := by simp [List.head?_eq_getElem?]
      exact ⟨⟨⟨1, true⟩, rfl, by simp, fun _ => hrest ▸ hnames⟩,
        by simp [words, counted, shape?, hrest, hwords]⟩
    · cases h
    · rename_i start goal rest
      obtain ⟨side, hside, rfl⟩ := map_eq_ok.1 h
      obtain ⟨hnames, hwords⟩ := sideOf_eq_ok.1 hside
      have hrest : (start :: goal :: rest)[2]? = rest.head? := by simp [List.head?_eq_getElem?]
      exact ⟨⟨⟨2, true⟩, rfl, by simp, fun _ => hrest ▸ hnames⟩,
        by simp [words, counted, shape?, hrest, hwords]⟩
    · cases h
    · cases h
    · cases h
      exact ⟨⟨⟨1, false⟩, rfl, by simp, hplain⟩, by simp [words, counted, shape?]⟩
    · cases h
    all_goals cases h
    · exact ⟨⟨⟨0, false⟩, rfl, by simp, hplain⟩, by simp [words, counted, shape?]⟩
    · exact ⟨⟨⟨0, false⟩, rfl, by simp, hplain⟩, by simp [words, counted, shape?]⟩
    · exact ⟨⟨⟨0, false⟩, rfl, by simp, hplain⟩, by simp [words, counted, shape?]⟩

/-- What words spell is read. -/
theorem ofWords_of_spells {ws : List String} (h : Spells ws) : ∃ step, ofWords ws = .ok step := by
  match ws, h with
  | kind :: arguments, ⟨shape, hshape, hlength, hside⟩ =>
    rw [shape?.eq_def] at hshape
    split at hshape <;> cases hshape
    · match arguments, hlength, hside rfl with
      | location :: rest, _, hside =>
        have hrest : (location :: rest)[1]? = rest.head? := by simp [List.head?_eq_getElem?]
        obtain ⟨side, hread⟩ := exists_sideOf (hrest ▸ hside)
        exact ⟨tap location side, map_eq_ok.2 ⟨side, hread, rfl⟩⟩
    · match arguments, hlength, hside rfl with
      | start :: goal :: rest, _, hside =>
        have hrest : (start :: goal :: rest)[2]? = rest.head? := by simp [List.head?_eq_getElem?]
        obtain ⟨side, hread⟩ := exists_sideOf (hrest ▸ hside)
        exact ⟨swipe start goal side, map_eq_ok.2 ⟨side, hread, rfl⟩⟩
    · match arguments, hlength with
      | spec :: _, _ => exact ⟨wait spec, rfl⟩
    · exact ⟨mark, rfl⟩
    · exact ⟨loop, rfl⟩
    · exact ⟨load, rfl⟩

/-- **So are words read**: those that spell a step, and no others. -/
theorem ofWords_iff {ws : List String} : (∃ step, ofWords ws = .ok step) ↔ Spells ws :=
  ⟨fun ⟨_, h⟩ => (spells_of_ofWords h).1, ofWords_of_spells⟩

/-- The words of a step spell it. -/
theorem ofWords_words (step : Step) : ofWords step.words = .ok step := by
  have hside (side : Option Side) : sideOf (sideWords side) = .ok side := by
    match side with
    | none => rfl
    | some side => rw [sideWords, sideOf, Side.ofWord_name]
  match step with
  | tap location side => exact map_eq_ok.2 ⟨side, hside side, rfl⟩
  | swipe start goal side => exact map_eq_ok.2 ⟨side, hside side, rfl⟩
  | wait _ | mark | loop | load => rfl

/-- Words that no place is left for do not count. -/
theorem ofWords_surplus {kind : String} {shape : Shape} (hshape : shape? kind = some shape)
    {arguments : List String} (hlength : arguments.length = shape.arguments + shape.sided.toNat)
    (surplus : List String) :
    ofWords (kind :: (arguments ++ surplus)) = ofWords (kind :: arguments) := by
  rw [shape?.eq_def] at hshape
  split at hshape <;> cases hshape
  · match arguments, hlength with
    | [location, word], _ => rfl
  · match arguments, hlength with
    | [start, goal, word], _ => rfl
  · match arguments, hlength with
    | [spec], _ => rfl
  · rfl
  · rfl
  · rfl

end Step

/-! ## Lists -/

theorem Json.nodes_eq_map (items : List Json) : nodes items = items.map node := by
  induction items with
  | nil => rw [nodes, List.map_nil]
  | cons item rest ih => rw [nodes, ih, List.map_cons]

/-- A list is read as it was written if each of its items is. -/
theorem Reader.list_node {α : Type} {r : Reader α} {origin : Origin} {toJson : α → Json}
    (h : ∀ a, r origin (toJson a).node = .ok a) (as : List α) :
    Reader.list r origin (Json.list (as.map toJson)).node = .ok as := by
  have hitems : (Json.nodes (as.map toJson)).mapM (r origin) = .ok as := by
    rw [Json.nodes_eq_map, List.map_map, List.mapM_map]
    induction as with
    | nil => rfl
    | cons a as ih =>
      rw [List.mapM_cons, Function.comp_apply, Function.comp_apply, h a, ih]
      rfl
  rw [Json.node, Reader.list, hitems]
  rfl

/-! ## Steps -/

namespace Step

/-- A list of words is read as the step that they spell. -/
theorem reader_words (origin : Origin) (ws : List String) :
    Step.reader origin (Json.list (ws.map .text)).node =
      match ofWords ws with
      | .ok step => .ok step
      | .error f => Reader.fault (.refused f.message) := by
  have hws : Reader.list Reader.text origin (Json.list (ws.map .text)).node = .ok ws :=
    Reader.list_node (fun s => by rw [Json.node]; rfl) ws
  simp only [reader, Reader.refine, Reader.bind, hws, bind, Except.bind]
  cases ofWords ws <;> rfl

/-- The words as a document on a line. -/
def lineOf (ws : List String) : String :=
  (Json.list (ws.map .text)).compact

theorem ofText_lineOf {ws : List String} {step : Step} :
    Step.reader.ofText (lineOf ws) = .ok step ↔ ofWords ws = .ok step := by
  rw [lineOf, Reader.ofText_compact, reader_words]
  cases ofWords ws <;> simp [Reader.fault]

theorem reader_node (origin : Origin) (step : Step) :
    Step.reader origin step.toJson.node = .ok step := by
  rw [toJson, reader_words, ofWords_words]

end Step

/-! ## Scripts -/

theorem Reader.whole_node {expected : String} {bound n : Nat} (h : n < bound)
    (hsize : bound ≤ UInt64.size) (origin : Origin) :
    Reader.whole expected bound origin (Json.integer n).node = .ok n := by
  rw [Json.node, Lexeme.ofNumber_natural (Nat.lt_of_lt_of_le h hsize), Reader.whole]
  simp [h]

theorem Reader.whole8_node (n : UInt8) (origin : Origin) :
    Reader.whole8 origin (Json.integer n.toNat).node = .ok n := by
  refine bind_eq_ok.2 ⟨n.toNat, whole_node n.toNat_lt (by decide) origin, ?_⟩
  simp

theorem Reader.whole32_node (n : UInt32) (origin : Origin) :
    Reader.whole32 origin (Json.integer n.toNat).node = .ok n := by
  refine bind_eq_ok.2 ⟨n.toNat, whole_node n.toNat_lt (by decide) origin, ?_⟩
  simp

namespace Iterations

variable {origin : Origin} {node : Node}

theorem reader_of_number (hsound : node.isSound Reader.heldDepth = true) {n : UInt32}
    (h : Reader.whole32 .held node = .ok n) : Iterations.reader origin node = .ok (count n) := by
  simp only [Iterations.reader, Reader.hold, if_pos hsound, bind, Except.bind, h]
  rfl

theorem reader_of_numbers (hsound : node.isSound Reader.heldDepth = true) {f : Fault}
    (h : Reader.whole32 .held node = .error f) {ns : List UInt32}
    (hlist : Reader.list Reader.whole32 .held node = .ok ns) :
    Iterations.reader origin node = .ok (list ns) := by
  simp only [Iterations.reader, Reader.hold, if_pos hsound, bind, Except.bind, h, hlist]
  rfl

theorem isSound_number (n : UInt32) (depth : Nat) :
    (Json.integer n.toNat).node.isSound depth = true := by
  rw [Json.node, Lexeme.ofNumber_natural (Nat.lt_trans n.toNat_lt (by decide))]
  rfl

theorem isSound_numbers (ns : List UInt32) (depth : Nat) :
    Node.areSound depth (Json.nodes (ns.map fun n => .integer n.toNat)) = true := by
  rw [Json.nodes_eq_map, List.map_map]
  induction ns with
  | nil => rfl
  | cons n ns ih =>
    rw [List.map_cons, Node.areSound, ih, Bool.and_true]
    exact isSound_number n depth

/-- A number of passes is read, given as a number or as a list. -/
theorem reader_node (origin : Origin) (iterations : Iterations) :
    Iterations.reader origin iterations.toJson.node = .ok iterations := by
  match iterations with
  | count n =>
    rw [toJson]
    exact reader_of_number (isSound_number n _) (Reader.whole32_node n .held)
  | list ns =>
    have hlist := Reader.list_node (fun n => Reader.whole32_node n .held) ns
    rw [toJson] at *
    refine reader_of_numbers ?_ rfl hlist
    rw [Json.node, Reader.heldDepth, Node.isSound, isSound_numbers ns, Bool.and_true]

theorem node_ne_null (iterations : Iterations) : iterations.toJson.node ≠ .null := by
  match iterations with
  | count n =>
    rw [toJson, Json.node, Lexeme.ofNumber_natural (Nat.lt_trans n.toNat_lt (by decide))]
    exact nofun
  | list ns =>
    rw [toJson, Json.node]
    exact nofun

end Iterations

/-- The value of a field that is written if there is one. -/
theorem Record.Makes.optional {α : Type} {r : Reader α} {origin : Origin} (toJson : α → Json)
    {value : Option α}
    (h : ∀ a ∈ value, Reader.optional r origin (toJson a).node = .ok (some a)) (name : String) :
    (Record.defaulted name none (Reader.optional r)).Makes origin
      [(name, value.map fun a => (toJson a).node)] (some value) := by
  match value, h with
  | none, _ => exact .leftOut
  | some a, h => exact .read (h a rfl)

namespace Script

/-- The fields of a script, as they are written. -/
def written (script : Script) : List (String × Option Node) :=
  [("name", some (.text script.name))]
    ++ [("initial_state", script.initialState.map fun s => (Json.text s).node)]
    ++ [("devices", some (Json.integer script.devices.toNat).node)]
    ++ [("iterations", script.iterations.map fun i => i.toJson.node)]
    ++ [("steps", some (Json.list (script.steps.map Step.toJson)).node)]

theorem node_toJson (script : Script) :
    script.toJson.node = .table (Record.membersOf script.written) true := by
  rw [toJson, Json.node, Json.memberNodes_eq_map, written]
  obtain ⟨name, initialState, devices, iterations, steps⟩ := script
  cases initialState <;> cases iterations <;> simp [whenSome, Record.membersOf, Json.node]

/-- **A script is read as it was written.** -/
theorem reader_node (origin : Origin) (script : Script) :
    Script.reader origin script.toJson.node = .ok script := by
  have hname : Reader.text origin (.text script.name) = .ok script.name := rfl
  have hinitial : ∀ s ∈ script.initialState,
      Reader.optional Reader.text origin (Json.text s).node = .ok (some s) := fun s _ => by
    rw [Json.node]
    rfl
  have hiterations : ∀ i ∈ script.iterations,
      Reader.optional Iterations.reader origin i.toJson.node = .ok (some i) := fun i _ =>
    Reader.optional_of_ok i.node_ne_null (i.reader_node origin)
  have hsteps := Reader.list_node (fun step => Step.reader_node origin step) script.steps
  have hmakes : record.Makes origin script.written (some script) :=
    (((((Record.Makes.read hname).map Script.mk).seq
      ((Record.Makes.optional .text hinitial "initial_state").aliased "initialState")).seq
      (.read (Reader.whole8_node script.devices origin))).seq
      (Record.Makes.optional Iterations.toJson hiterations "iterations")).seq (.read hsteps)
  rw [node_toJson, ← toOption_eq_some]
  exact hmakes.reader (by decide) "struct Script"

/-- **Scripts are read back as they were written**, on one line or on many.  Of lists of words those
that spell a step are read, and no others; words behind those that a step has places for change
nothing, and the step that is read is written with the words that count. -/
theorem scripts_reread :
    (∀ script : Script, Script.reader.ofText script.toJson.compact = .ok script ∧
      Script.reader.ofText (script.toJson.pretty ++ "\n") = .ok script) ∧
    (∀ ws, (∃ step, Step.reader.ofText (Step.lineOf ws) = .ok step) ↔ Step.Spells ws) ∧
    (∀ kind shape, Step.shape? kind = some shape → ∀ arguments surplus : List String,
      arguments.length = shape.arguments + shape.sided.toNat →
        Step.reader.ofText (Step.lineOf (kind :: (arguments ++ surplus))) =
          Step.reader.ofText (Step.lineOf (kind :: arguments))) ∧
    ∀ ws step, Step.reader.ofText (Step.lineOf ws) = .ok step →
      step.toJson = .list ((Step.counted ws).map .text) := by
  refine ⟨fun script => ?_, fun ws => ?_, fun kind shape hshape arguments surplus hlength => ?_,
    fun ws step hread => ?_⟩
  · rw [Reader.ofText_compact, Reader.ofText_pretty]
    exact ⟨reader_node .running script, reader_node .running script⟩
  · simp only [Step.ofText_lineOf]
    exact Step.ofWords_iff
  · rw [Step.lineOf, Step.lineOf, Reader.ofText_compact, Reader.ofText_compact, Step.reader_words,
      Step.reader_words, Step.ofWords_surplus hshape hlength]
  · rw [Step.toJson, (Step.spells_of_ofWords (Step.ofText_lineOf.1 hread)).2]

/-- A script with steps of all kinds, a tap with a word too many, and one without a location. -/
theorem scripts_reread_allKinds :
    let script : Script := ⟨"a\"\n", some "off", 2, some (.list [3, 0]),
      [.tap "ok" (some .left), .swipe "a" "b" none, .wait "500ms", .mark, .loop, .load]⟩
    Script.reader.ofText script.toJson.compact = .ok script ∧
      Step.Spells ["tap", "ok", "LEFT"] ∧
      (∃ step, Step.reader.ofText (Step.lineOf ["tap", "ok", "LEFT", "more"]) = .ok step ∧
        step.toJson = .list [.text "tap", .text "ok", .text "left"]) ∧
      ¬∃ step, Step.reader.ofText (Step.lineOf ["tap"]) = .ok step := by
  intro script
  obtain ⟨hback, hspells, hsurplus, hcounted⟩ := scripts_reread
  have hshape : Step.shape? "tap" = some ⟨1, true⟩ := rfl
  have htap : Step.Spells ["tap", "ok", "LEFT"] := by
    refine ⟨_, hshape, by decide, fun _ word hword => ?_⟩
    cases hword
    exact .inl (by decide +kernel)
  have hnone : ¬Step.Spells ["tap"] := by
    rintro ⟨shape, hsame, hlength, -⟩
    cases hshape.symm.trans hsame
    exact absurd hlength (by decide)
  have hmore := hsurplus "tap" _ hshape ["ok", "LEFT"] ["more"] rfl
  obtain ⟨step, hstep⟩ := (hspells _).2 htap
  refine ⟨(hback script).1, htap, ⟨step, hmore.trans hstep, ?_⟩, fun h => hnone ((hspells _).1 h)⟩
  have hwords : Step.counted ["tap", "ok", "LEFT"] = ["tap", "ok", "left"] := by decide +kernel
  rw [hcounted _ step hstep, hwords]
  rfl

end Script

end Stylus
