import Stylus.Proofs.Document.Proper
import Stylus.Proofs.Protocol.Envelope
import Stylus.Proofs.Run.Numbers

/-!
# The numbers of requests are finite

Requests come as documents, so what they have of numbers is finite.

* `Tagged.yields_reader` — the rule for a choice among readers;
* `Request.Finite` — a request with finite numbers;
* `Envelope.finite_of_ofLine` — **the request in a line has finite numbers**.
-/

set_option autoImplicit false

namespace Stylus

/-! ## Choices -/

namespace Tagged

variable {α : Type} {P : α → Prop} {t : Tagged α} {origin : Origin}

/-- A variant that was chosen is one of those there are. -/
theorem yields_variant (h : ∀ v ∈ t.variants, v.2.Yields P) {node : Node} {r : Reader α}
    (read : t.variant origin node = .ok r) : r.Yields P := by
  obtain ⟨name, hv⟩ := mem_of_variant read
  exact h (name, r) hv

theorem proper_hold {node held : Node} (hnode : node.Proper)
    (read : Reader.hold origin node = .ok held) : held.Proper := by
  rw [Reader.hold] at read
  split at read
  · cases read
    exact hnode
  · cases read

/-- **What a choice makes of proper trees has the property**, if all its readers yield it. -/
theorem yields_reader (h : ∀ v ∈ t.variants, v.2.Yields P) : t.reader.Yields P := by
  intro origin node hnode a read
  match node, hnode with
  | .table members closed, .table _ each =>
    obtain ⟨v, takes, -, read⟩ := reader_table_eq_ok.mp read
    have hothers : ∀ m ∈ Reader.without t.tag members, m.2.Proper :=
      fun m hm => each m (List.mem_filter.mp hm).1
    obtain ⟨tag, -, reads⟩ := tag_of_takesOut takes
    exact yields_variant h reads .held _ (.table _ hothers) a read
  | .list [] closed, _ =>
    obtain ⟨-, -, read⟩ := bind_eq_ok.mp read
    cases read
  | .list (first :: rest) closed, .list _ each =>
    obtain ⟨v, hv, read⟩ := bind_eq_ok.mp read
    obtain ⟨held, hheld, read⟩ := bind_eq_ok.mp read
    obtain ⟨-, -, read⟩ := bind_eq_ok.mp read
    refine yields_variant h hv .held _ (.list _ fun node hnode => ?_) a read
    obtain ⟨item, hitem, hhold⟩ := mem_of_mapM_eq_ok hheld node hnode
    exact proper_hold (each item (List.mem_cons_of_mem _ hitem)) hhold

end Tagged

/-! ## Requests -/

namespace Request

/-- All numbers of the request are finite. -/
def Finite : Request → Prop
  | moveAbsolute _ v | moveRelative _ v => Number.isFinite v = true
  | moveToPosition target => target.Finite
  | learn _ _ _ x y =>
    (∀ v ∈ x, Number.isFinite v = true) ∧ ∀ v ∈ y, Number.isFinite v = true
  | _ => True

theorem yields_optionalReal (name : String) :
    (optionalReal name).Yields fun o => ∀ v ∈ o, Number.isFinite v = true :=
  .defaulted nofun (.optional .real)

/-- A position or a distance along an axis. -/
theorem yields_along {f : Axis → Float → Request}
    (hf : ∀ axis v, Number.isFinite v = true → (f axis v).Finite) (title name : String) :
    (variant title (f <$> Record.required "axis" Axis.reader
      <*> Record.required name Reader.real)).Yields Finite :=
  Record.Yields.reader (.seq (.map (.required .any) fun axis _ v hv => hf axis v hv)
    (.required .real)) _

theorem yields_moveToPosition :
    (variant "MoveToPosition" <|
      (fun x y z e => moveToPosition { x, y, z, e }) <$> optionalReal "x" <*> optionalReal "y"
        <*> optionalReal "z" <*> optionalReal "e").Yields Finite := by
  refine Record.Yields.reader (.seq (.seq (.seq (.map (yields_optionalReal "x") ?_)
    (yields_optionalReal "y")) (yields_optionalReal "z")) (yields_optionalReal "e")) _
  exact fun x hx y hy z hz e he => ⟨hx, hy, hz, he⟩

theorem yields_runScript :
    (variant "RunScript" <|
      runScript <$> Record.required "script" Reader.text <*> optionalText "layout_left"
        <*> optionalText "layout_right"
        <*> Record.defaulted "side" none (Reader.optional Side.reader)).Yields Finite := by
  refine Record.Yields.reader (.seq (.seq (.seq (.map (.required .any) ?_)
    (.defaulted trivial .any)) (.defaulted trivial .any)) (.defaulted trivial .any)) _
  exact fun script _ left _ right _ side _ => trivial

theorem yields_learn :
    (variant "Learn" <|
      learn <$> Record.required "layout" Reader.text <*> Record.required "side" Side.reader
        <*> Record.required "position" Reader.text <*> optionalReal "x"
        <*> optionalReal "y").Yields Finite := by
  refine Record.Yields.reader (.seq (.seq (.seq (.seq (.map (.required .any) ?_)
    (.required .any)) (.required .any)) (yields_optionalReal "x")) (yields_optionalReal "y")) _
  exact fun layout _ side _ position _ x hx y hy => ⟨hx, hy⟩

/-- The requests in documents have finite numbers. -/
theorem yields_reader : reader.Yields Finite := by
  have plain {request : Request} (h : request.Finite) : (Record.unit request).Yields Finite :=
    .unit h
  refine Tagged.yields_reader ?_
  simp only [tagged, List.forall_mem_cons]
  exact ⟨plain trivial, plain trivial, plain trivial, plain trivial,
    yields_along (f := moveAbsolute) (fun _ _ hv => hv) "MoveAbsolute" "position",
    yields_along (f := moveRelative) (fun _ _ hv => hv) "MoveRelative" "distance",
    yields_moveToPosition, plain trivial, yields_runScript, plain trivial, plain trivial,
    plain trivial, plain trivial, plain trivial, plain trivial, plain trivial, plain trivial,
    yields_learn, List.forall_mem_nil _⟩

end Request

/-! ## Lines -/

namespace Envelope

theorem yields_named : named.Yields fun e => e.request.Finite := by
  intro origin node hnode e read
  match node, hnode with
  | .table members closed, .table _ each =>
    obtain ⟨-, -, -, -, read⟩ := named_table_eq_ok.mp read
    exact Request.yields_reader .held _
      (.table _ fun m hm => each m (List.mem_filter.mp hm).1) e.request read

/-- **The request in a line has finite numbers.** -/
theorem finite_of_ofLine {line : String} {e : Envelope} (h : ofLine line = .ok e) :
    e.request.Finite := by
  rcases cases_of_ofLine h with ⟨members, closed, clean, root, read⟩ | ⟨-, request, -, read, rfl⟩
  · exact yields_named.ofText (Reader.ofText_eq_ok.mpr ⟨clean, root ▸ read⟩)
  · exact Request.yields_reader.ofText read

end Envelope

end Stylus
