import Stylus.Number.Reading
import Stylus.Proofs.Number.Rounding
import Stylus.Proofs.Number.Shortest

/-!
# Finite numbers

Neither reading a number nor halving, adding and rounding on the way to the middle of two others
leads out of the finite ones.

* `isFinite_iff` — a number is finite if its bits say so, or if the model of numbers does;
* `isFinite_neg`, `isFinite_mean`, `isFinite_roundAway`, `isFinite_ofInt` — the operations that
  numbers in commands are made with;
* `isFinite_scaled` — **a number that is read is finite**.
-/

set_option autoImplicit false

namespace Stylus

namespace Number

open Float.Model Float.Model.UnpackedFloat

/-! ## The bits of a number -/

theorem toNat_unpackExponent (x : Float) :
    (@unpackExponent Format.binary64 x.toBits.toBitVec).toNat =
      x.toBits.toNat / 2 ^ 52 % 2 ^ 11 := by
  rw [unpackExponent, BitVec.toNat_cast, BitVec.extractLsb_toNat, Nat.shiftRight_eq_div_pow]
  rfl

/-- A number is finite if the model says so. -/
theorem isFinite_iff {x : Float} : isFinite x = true ↔ Below 971 x.toModel.unpack := by
  have hfield := toNat_unpackExponent x
  have hlt : x.toBits.toNat / 2 ^ 52 % 2 ^ 11 < 2 ^ 11 := Nat.mod_lt _ (by decide)
  rw [isFinite, Binary.ofFloat, Binary.ofBits]
  dsimp only [Nat.pow_eq]
  show _ ↔ Below 971 (UnpackedFloat.unpack Format.binary64 x.toBits.toBitVec)
  by_cases h : x.toBits.toNat / 2 ^ 52 % 2 ^ 11 = 2047
  · rw [if_pos h]
    have hones : @unpackExponent Format.binary64 x.toBits.toBitVec = -1#_ :=
      BitVec.eq_of_toNat_eq (hfield.trans h)
    rw [UnpackedFloat.unpack]
    dsimp only
    rw [if_pos hones]
    constructor
    · split <;> rintro ⟨⟩
    · split <;> rintro ⟨⟩
  · rw [if_neg h]
    refine ⟨fun _ => below_unpack (by decide) ?_ ?_, fun _ => ?_⟩
    · omega
    · omega
    · split <;> rfl

/-! ## Powers of ten -/

theorem ofScientific_eq {m n : Nat} (hm : m ≠ 0) (hn : n ≤ 2048) :
    UnpackedFloat.ofScientific Format.binary64 m n =
      roundWithAccuracy Format.binary64 .positive (m <<< 53 * 10 ^ n) (-53) .exact := by
  rw [UnpackedFloat.ofScientific, dif_neg hm, if_neg, if_neg, if_pos]
  · rfl
  · omega
  · show ¬ (n : Int) < -((2048 : Int) + _)
    omega
  · show ¬ (n : Int) > 2048
    omega

theorem atLeast_powerOfTen {n : Nat} (h : n ≤ 308) : AtLeast 0 (powerOfTen n).toModel.unpack := by
  rcases Nat.lt_or_ge 22 n with hn | hn
  · have hmantissa : 2 ^ 53 ≤ 1 <<< 53 * 10 ^ n :=
      Nat.mul_le_mul_left (2 ^ 53) (Nat.pow_pos (by decide) : 1 ≤ 10 ^ n)
    have hlog :=
      (Nat.le_log2 (Nat.ne_of_gt (Nat.lt_of_lt_of_le (by decide) hmantissa))).mpr hmantissa
    have hpower : (powerOfTen n).toModel =
        Float.Model.pack (UnpackedFloat.ofScientific Format.binary64 1 n) := by
      rw [powerOfTen, Float.ofScientific]
      dsimp only
      rw [dif_neg (by omega)]
      rfl
    rw [hpower, ofScientific_eq (by decide) (by omega)]
    refine atLeast_pack (atLeast_round (Nat.le_trans (by decide) hmantissa) (by omega) _ _) ?_
    refine below_round (by decide) (by decide) ?_ (.inl rfl) _
    exact Nat.le_trans (Nat.mul_le_mul_left _ (Nat.pow_le_pow_right (by decide) h))
      (by decide +kernel)
  · -- these are kept in a table
    have htable : ∀ n ≤ 22, AtLeast 0 (powerOfTen n).toModel.unpack := by decide +kernel
    exact htable n hn

/-! ## Operations on finite numbers -/

variable {x y : Float}

theorem isFinite_of_below {z : UnpackedFloat} {limit : Int} (h : Below limit z)
    (hlimit : limit ≤ 971) : isFinite (.ofModel (Float.Model.pack z)) = true :=
  isFinite_iff.mpr (below_pack (by decide) (Int.le_refl _) (h.mono hlimit))

theorem isFinite_neg (h : isFinite x = true) : isFinite (-x) = true :=
  isFinite_of_below (isFinite_iff.mp h).neg (Int.le_refl _)

/-- A quotient by `2^exponent` or more. -/
theorem below_quotient {exponent : Int} (h : isFinite x = true) (hexponent : 0 ≤ exponent)
    (hy : AtLeast exponent y.toModel.unpack) :
    Below (max (971 - exponent) (-1074)) (x / y).toModel.unpack := by
  have hx := isFinite_iff.mp h
  have hsized := sized_unpack x.toModel
  show Below _ (Float.Model.pack (UnpackedFloat.div Format.binary64 x.toModel.unpack
    y.toModel.unpack)).unpack
  refine below_pack (by omega) (by omega) ?_
  generalize x.toModel.unpack = u at *
  generalize y.toModel.unpack = v at *
  match hx, hsized, hy with
  | .zero _, _, .finite _ _ _ => exact .zero _
  | .finite he₁, ⟨hm₁, _⟩, .finite hm₂ _ he₂ =>
    exact (below_div hm₁ hm₂ _ _ _ _).mono (by omega)

theorem isFinite_quotient (h : isFinite x = true) (hy : AtLeast 0 y.toModel.unpack) :
    isFinite (x / y) = true :=
  isFinite_iff.mpr ((below_quotient h (Int.le_refl 0) hy).mono (by decide))

theorem below_half (h : isFinite x = true) : Below 970 (x / 2).toModel.unpack :=
  @below_quotient x 2 1 h (by decide) (by decide)

/-- The sum of two halves does not exceed the larger number. -/
theorem isFinite_mean (hx : isFinite x = true) (hy : isFinite y = true) :
    isFinite (x / 2 + y / 2) = true := by
  have hsum := (below_half hx).add (by decide) (below_half hy) (sized_unpack _) (sized_unpack _)
  exact isFinite_of_below hsum (by decide)

/-! ## Whole numbers -/

/-- A whole number that takes up to 64 bits. -/
theorem isFinite_ofNat {n : Nat} (h : n ≤ 2 ^ 64) : isFinite (Float.ofNat n) = true := by
  show isFinite (Float.ofScientific n false 0) = true
  rw [Float.ofScientific]
  dsimp only
  split
  · -- a number of up to 53 bits is taken as it is, and multiplied by one
    rename_i hsmall
    have hn : n.toUInt64.toNat ≤ topMantissa :=
      Nat.le_trans (Nat.mod_le n _) (Nat.le_sub_one_of_lt hsmall.1)
    have hsame : Below 0 (UnpackedFloat.ofNat Format.binary64 n.toUInt64.toNat) :=
      below_normalize (by decide) (Int.le_refl 0) (Nat.le_trans hn (by decide)) _
    have hone : Below 0 (Float.ofBits 0x3FF0000000000000).toModel.unpack :=
      .finite (by decide : (-52 : Int) ≤ 0)
    exact isFinite_of_below ((below_pack (by decide) (by decide) hsame).mul (by decide) hone
      (sized_unpack _) (sized_unpack _)) (by decide)
  · rename_i hlarge
    show isFinite (.ofModel
      (Float.Model.pack (UnpackedFloat.ofScientific Format.binary64 n (0 : Nat)))) = true
    have hpos : n ≠ 0 := by
      rintro rfl
      exact hlarge (by decide)
    rw [ofScientific_eq hpos (by decide)]
    refine isFinite_iff.mpr (below_pack (by decide) (by decide) ?_)
    refine below_round (by decide) (by decide) ?_ (.inl rfl) _
    calc n <<< 53 * 10 ^ 0 = n * 2 ^ 53 := by rw [Nat.shiftLeft_eq, Nat.pow_zero, Nat.mul_one]
      _ ≤ 2 ^ 64 * 2 ^ 53 := Nat.mul_le_mul_right (2 ^ 53) h
      _ ≤ topMantissa * 2 ^ (971 - (-53 : Int)).toNat := by decide +kernel

theorem isFinite_ofInt {n : Int} (h : n.natAbs ≤ 2 ^ 64) : isFinite (Float.ofInt n) = true := by
  match n, h with
  | .ofNat n, h => exact isFinite_ofNat h
  | .negSucc n, h => exact isFinite_neg (isFinite_ofNat h)

/-- Rounding to a whole number. -/
theorem isFinite_roundAway (h : isFinite x = true) : isFinite (roundAway x) = true := by
  rw [roundAway]
  split
  · rename_i negative m e hx
    have hm : m < 2 ^ 53 := (inRange_of_ofFloat hx).mantissa_lt
    have hwhole : isFinite (Float.ofNat ((m + Nat.pow 2 e) / Nat.pow 2 (e + 1))) = true := by
      apply isFinite_ofNat
      calc (m + 2 ^ e) / 2 ^ (e + 1) ≤ (m + 2 ^ e) / 2 ^ e :=
            Nat.div_le_div_left (Nat.pow_le_pow_right (by decide) (by omega)) (Nat.two_pow_pos e)
        _ = m / 2 ^ e + 1 := Nat.add_div_right _ (Nat.two_pow_pos e)
        _ ≤ 2 ^ 64 := by
          have := Nat.div_le_self m (2 ^ e)
          omega
    dsimp only
    split
    · exact isFinite_neg hwhole
    · exact hwhole
  · exact h

/-! ## Numbers that are read -/

namespace Scaled

/-- Scaled by a power of ten, a finite number stays finite, or is refused. -/
theorem isFinite_scale (hx : isFinite x = true) (steps : Nat) (exponent : Int) :
    ∀ y ∈ scale x steps exponent, isFinite y = true := by
  induction steps generalizing x exponent with
  | zero =>
    rintro _ ⟨⟩
    decide
  | succ steps ih =>
    intro y hy
    rw [scale] at hy
    split at hy
    · rename_i hexponent
      split at hy
      · dsimp only at hy
        split at hy
        · rename_i hproduct
          cases hy
          exact hproduct
        · cases hy
      · cases hy
        exact isFinite_quotient hx (atLeast_powerOfTen hexponent)
    · split at hy
      · cases hy
        exact hx
      · split at hy
        · cases hy
        · have hten := atLeast_powerOfTen (Nat.le_refl 308)
          exact ih (isFinite_quotient hx hten) _ y hy

theorem isFinite_number (negative : Bool) {significand : Nat} (h : significand ≤ capacity)
    (exponent : Int) : ∀ y ∈ number negative significand exponent, isFinite y = true := by
  intro y hy
  obtain ⟨x, hx, rfl⟩ := Option.map_eq_some_iff.mp hy
  have hfinite := isFinite_scale (isFinite_ofNat (Nat.le_trans h (by decide))) 5 exponent x hx
  split
  · exact isFinite_neg hfinite
  · exact hfinite

theorem takeWhole_le {significand : Nat} (h : significand ≤ capacity) (digits : List Nat) :
    (takeWhole significand digits).1 ≤ capacity := by
  induction digits generalizing significand with
  | nil => exact h
  | cons d rest ih =>
    rw [takeWhole]
    split
    · exact h
    · exact ih (by omega)

theorem takePlaces_le {significand : Nat} (h : significand ≤ capacity) (digits : List Nat) :
    (takePlaces significand digits).1 ≤ capacity := by
  induction digits generalizing significand with
  | nil => exact h
  | cons d rest ih =>
    rw [takePlaces]
    split
    · exact h
    · exact ih (by omega)

end Scaled

/-- **A number that is read is finite**, or it is refused. -/
theorem isFinite_scaled (negative : Bool) (whole places : List Nat) (exponentNegative : Bool)
    (exponent : List Nat) :
    ∀ y ∈ scaled negative whole places exponentNegative exponent, isFinite y = true := by
  intro y hy
  rw [scaled] at hy
  dsimp only at hy
  split at hy
  · split at hy
    · cases hy
    · cases hy
      split <;> decide
  · exact Scaled.isFinite_number negative
      (Scaled.takePlaces_le (Scaled.takeWhole_le (Nat.zero_le _) whole) places) _ y hy

end Number

end Stylus
