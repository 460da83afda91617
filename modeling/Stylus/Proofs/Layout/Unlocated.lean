import Stylus.Layout.Basic

/-!
# What a layout lacks

The locations of a script that a layout lacks are found by going through its steps once and putting
what is missing in order.

* `Layout.ascending_unlocated` — they are in strict order, so each is named once;
* `Layout.mem_unlocated` — they are the locations of the steps for that side that have no position;
* `Layout.resolve_eq_error` — and those without a position are the ones that do not resolve;
* `Layout.mem_unlocated_iff_resolve` — what a step for the side touches is listed exactly if it does
  not resolve.
-/

set_option autoImplicit false

namespace Stylus
namespace Layout

/-! ## Names in order -/

theorem mem_insertName {name m : String} {names : List String} :
    m ∈ insertName name names ↔ m = name ∨ m ∈ names := by
  fun_induction insertName name names <;> grind

/-- A name put in its place keeps the others in order. -/
theorem ascending_insertName (name : String) {names : List String} (h : names.Pairwise (· < ·)) :
    (insertName name names).Pairwise (· < ·) := by
  fun_induction insertName name names with
  | case1 => exact List.pairwise_singleton _ _
  | case2 => exact h
  | case3 n rest _ hlt =>
    refine List.pairwise_cons.mpr ⟨List.forall_mem_cons.mpr ⟨hlt, fun m hm => ?_⟩, h⟩
    exact String.lt_trans hlt (List.rel_of_pairwise_cons h hm)
  | case4 n rest hne hnlt ih =>
    refine List.pairwise_cons.mpr ⟨fun m hm => ?_, ih (List.Pairwise.of_cons h)⟩
    rcases mem_insertName.mp hm with rfl | hm
    · grind
    · exact List.rel_of_pairwise_cons h hm

theorem mem_sortedNames {m : String} {names : List String} : m ∈ sortedNames names ↔ m ∈ names := by
  induction names with
  | nil => exact Iff.rfl
  | cons name names ih => rw [sortedNames, List.foldr_cons, mem_insertName, ← sortedNames, ih,
      List.mem_cons]

theorem ascending_sortedNames (names : List String) : (sortedNames names).Pairwise (· < ·) := by
  induction names with
  | nil => exact List.Pairwise.nil
  | cons name names ih => exact ascending_insertName name ih

/-! ## What is lacking -/

variable {layout : Layout} {script : Script} {side : Side}

/-- **What a layout lacks is listed in strict order.** -/
theorem ascending_unlocated (layout : Layout) (script : Script) (side : Side) :
    (layout.unlocated script side).Pairwise (· < ·) :=
  ascending_sortedNames _

/-- **What is listed**: the locations of the steps for the side, as far as they have no position. -/
theorem mem_unlocated {name : String} :
    name ∈ layout.unlocated script side ↔
      (∃ step ∈ script.steps, concerns side step = true ∧ name ∈ step.locations) ∧
        (layout.positions.on side).contains name = false := by
  simp only [unlocated, mem_sortedNames, List.mem_filter, List.mem_flatMap, Bool.not_eq_true',
    and_assoc]

/-- A location resolves unless it has no position. -/
theorem resolve_eq_error {name : String} {f : Failure} :
    layout.resolve side name = .error f ↔
      (layout.positions.on side).contains name = false ∧ f = .unresolvedLocation side name := by
  rw [resolve, Index.contains]
  split
  · rename_i p hp
    simp [hp]
  · rename_i hp
    simp [hp, eq_comm]

/-- **What a step for the side touches is listed exactly if it does not resolve.** -/
theorem mem_unlocated_iff_resolve (layout : Layout) {step : Step} (hstep : step ∈ script.steps)
    (concerned : concerns side step = true) {name : String} (touched : name ∈ step.locations) :
    name ∈ layout.unlocated script side ↔
      layout.resolve side name = .error (.unresolvedLocation side name) := by
  rw [mem_unlocated, resolve_eq_error]
  exact ⟨fun h => ⟨h.2, rfl⟩, fun h => ⟨⟨step, hstep, concerned, touched⟩, h.1⟩⟩

/-- A list of what is lacking names nothing that no step touches. -/
theorem exists_of_mem_unlocated {name : String} (h : name ∈ layout.unlocated script side) :
    name ∈ script.steps.flatMap Step.locations := by
  obtain ⟨⟨step, hstep, -, touched⟩, -⟩ := mem_unlocated.mp h
  exact List.mem_flatMap.mpr ⟨step, hstep, touched⟩

end Layout
end Stylus
