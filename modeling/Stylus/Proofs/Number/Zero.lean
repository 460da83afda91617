/-!
# Numbers up to the sign of zero

A zero is printed without its sign, so what a plotter has been sent and what the controller keeps
may differ in that.  `Number.Alike` is equality but for the sign of zero, and unlike the comparison
`==` it is reflexive: something that is not a number is like itself.

The difference does not grow: sums of like numbers are alike (`Alike.add`).  A zero of either sign
leaves any other number as it is, and the sum of two zeros is a zero.
-/

set_option autoImplicit false

namespace Stylus

namespace Number

open Float.Model Float.Model.UnpackedFloat

/-- The numbers are equal, or they are zeros of any signs. -/
def Alike (a b : Float) : Prop :=
  a = b ∨ ((a == 0) = true ∧ (b == 0) = true)

theorem Alike.refl (a : Float) : Alike a a :=
  .inl rfl

theorem Alike.trans {a b c : Float} (h : Alike a b) (h' : Alike b c) : Alike a c := by
  rcases h with rfl | ⟨ha, hb⟩
  · exact h'
  · rcases h' with rfl | ⟨-, hc⟩
    · exact .inr ⟨ha, hb⟩
    · exact .inr ⟨ha, hc⟩

/-! ## Zeros taken apart -/

theorem unpack_zero : (0 : Float).toModel.unpack = .zero .positive :=
  rfl

/-- Only the zeros compare equal to zero. -/
theorem beq_zero_iff {a : Float} : (a == 0) = true ↔ ∃ s : Sign, a.toModel.unpack = .zero s := by
  show (a.toModel.unpack.compare (0 : Float).toModel.unpack == some .eq) = true ↔ _
  rw [unpack_zero]
  cases a.toModel.unpack with
  | zero s => exact ⟨fun _ => ⟨s, rfl⟩, fun _ => rfl⟩
  | notANumber =>
    refine ⟨fun h => absurd h (by decide), ?_⟩
    rintro ⟨_, ⟨⟩⟩
  | infinity s =>
    refine ⟨fun h => absurd h (by cases s <;> decide), ?_⟩
    rintro ⟨_, ⟨⟩⟩
  | finite s m e pos =>
    refine ⟨fun h => ?_, ?_⟩
    · cases s <;> exact absurd h Bool.false_ne_true
    · rintro ⟨_, ⟨⟩⟩

/-- Packed, a zero is a zero again. -/
theorem unpack_pack_zero (s : Sign) : (pack (.zero s)).unpack = .zero s := by
  cases s <;> rfl

/-! ## Sums -/

theorem unpack_add (a b : Float) :
    a + b = .ofModel (pack (UnpackedFloat.add Format.binary64 a.toModel.unpack b.toModel.unpack)) :=
  rfl

/-- A sum whose first part is a zero: the zero does not count, unless the other part is one too. -/
theorem add_zero_left (s t : Sign) (y : UnpackedFloat) :
    UnpackedFloat.add Format.binary64 (.zero s) y =
        UnpackedFloat.add Format.binary64 (.zero t) y ∨
      (∃ r, UnpackedFloat.add Format.binary64 (.zero s) y = .zero r) ∧
        ∃ r, UnpackedFloat.add Format.binary64 (.zero t) y = .zero r := by
  cases y with
  | zero r =>
    refine .inr ⟨?_, ?_⟩
    · cases s <;> cases r <;> exact ⟨_, rfl⟩
    · cases t <;> cases r <;> exact ⟨_, rfl⟩
  | _ => exact .inl rfl

theorem add_zero_right (s t : Sign) (x : UnpackedFloat) :
    UnpackedFloat.add Format.binary64 x (.zero s) =
        UnpackedFloat.add Format.binary64 x (.zero t) ∨
      (∃ r, UnpackedFloat.add Format.binary64 x (.zero s) = .zero r) ∧
        ∃ r, UnpackedFloat.add Format.binary64 x (.zero t) = .zero r := by
  cases x with
  | zero r =>
    refine .inr ⟨?_, ?_⟩
    · cases s <;> cases r <;> exact ⟨_, rfl⟩
    · cases t <;> cases r <;> exact ⟨_, rfl⟩
  | _ => exact .inl rfl

theorem alike_ofModel_pack {x y : UnpackedFloat}
    (h : x = y ∨ (∃ r, x = .zero r) ∧ ∃ r, y = .zero r) :
    Alike (.ofModel (pack x)) (.ofModel (pack y)) := by
  rcases h with rfl | ⟨⟨r, rfl⟩, ⟨r', rfl⟩⟩
  · exact .refl _
  · refine .inr ⟨beq_zero_iff.mpr ⟨r, ?_⟩, beq_zero_iff.mpr ⟨r', ?_⟩⟩
    · exact unpack_pack_zero r
    · exact unpack_pack_zero r'

/-- **Sums of like numbers are alike.** -/
theorem Alike.add {a a' b b' : Float} (h : Alike a a') (h' : Alike b b') :
    Alike (a + b) (a' + b') := by
  have hleft : Alike (a + b) (a' + b) := by
    rcases h with rfl | ⟨ha, ha'⟩
    · exact .refl _
    · obtain ⟨s, hs⟩ := beq_zero_iff.mp ha
      obtain ⟨t, ht⟩ := beq_zero_iff.mp ha'
      rw [unpack_add, unpack_add, hs, ht]
      exact alike_ofModel_pack (add_zero_left s t _)
  have hright : Alike (a' + b) (a' + b') := by
    rcases h' with rfl | ⟨hb, hb'⟩
    · exact .refl _
    · obtain ⟨s, hs⟩ := beq_zero_iff.mp hb
      obtain ⟨t, ht⟩ := beq_zero_iff.mp hb'
      rw [unpack_add, unpack_add, hs, ht]
      exact alike_ofModel_pack (add_zero_right s t _)
  exact hleft.trans hright

end Number

end Stylus
