import Stylus.Number.Shortest

/-!
# The fewest digits are never none

The search for the fewest digits walks from coarse grids to fine ones.  The coarse grids have zero
as the point below a number, and a zero with a positive power of ten after it would be no numeral.
So it matters that zero is never what is found:

* `onGrid_pos` — the interval of a number does not reach down to zero;
* `den_le_last` — after all the grids the number is at least one step of the last one;
* `shortest_pos` — so whichever way the search ends, the digits are not zero.
-/

set_option autoImplicit false

namespace Stylus
namespace Number

/-- The mantissa and the exponent of a binary64 number. -/
structure InRange (mantissa : Nat) (exponent : Int) : Prop where
  mantissa_lt : mantissa < Nat.pow 2 53
  le_exponent : -1074 ≤ exponent
  exponent_le : exponent ≤ 971

namespace Shortest

theorem interval_low_pos {m : Nat} (hm : 0 < m) (e : Int) : 0 < (interval m e).low := by
  simp only [interval]
  split <;> omega

theorem ratio_fst_pos (e k : Int) : 0 < (ratio e k).1 :=
  Nat.mul_pos (Nat.pow_pos (by decide)) (Nat.pow_pos (by decide))

theorem ratio_snd_pos (e k : Int) : 0 < (ratio e k).2 :=
  Nat.mul_pos (Nat.pow_pos (by decide)) (Nat.pow_pos (by decide))

/-! ## A point of a grid -/

/-- Zero is outside of an interval that begins above it. -/
theorem pos_of_holds {i : Interval} {num den point : Nat} (hlow : 0 < i.low) (hnum : 0 < num)
    (h : i.holds num den point = true) : 0 < point := by
  have hpos : 0 < i.low * num := Nat.mul_pos hlow hnum
  have hle : i.low * num ≤ point * den := by
    rw [Interval.holds] at h
    split at h
    · simp only [Bool.and_eq_true, decide_eq_true_eq] at h
      exact h.1
    · simp only [Bool.and_eq_true, decide_eq_true_eq] at h
      exact Nat.le_of_lt h.1
  exact Nat.pos_of_mul_pos_right (Nat.lt_of_lt_of_le hpos hle)

/-- What is found on a grid lies in the interval. -/
theorem holds_of_onGrid {tie : Tie} {i : Interval} {num den point : Nat}
    (h : onGrid tie i num den = some point) : i.holds num den point = true := by
  simp only [onGrid] at h
  split at h
  · cases h
  · cases h
    assumption
  · cases h
    assumption
  · split at h
    · cases h
      assumption
    · split at h
      · cases h
        assumption
      · split at h
        · cases h
          assumption
        · split at h <;> cases h <;> assumption

theorem onGrid_pos {tie : Tie} {i : Interval} {num den point : Nat} (hlow : 0 < i.low)
    (hnum : 0 < num) (h : onGrid tie i num den = some point) : 0 < point :=
  pos_of_holds hlow hnum (holds_of_onGrid h)

/-! ## After the last grid -/

theorem search_pos {tie : Tie} {i : Interval} {e : Int} (hlow : 0 < i.low) (grids : Nat) (k : Int)
    (hlast : (ratio e (k - grids)).2 ≤ i.value * (ratio e (k - grids)).1) :
    0 < (search tie i e grids k).digits := by
  induction grids generalizing k with
  | zero =>
    rw [Int.natCast_zero, Int.sub_zero] at hlast
    exact Nat.div_pos hlast (ratio_snd_pos e k)
  | succ grids ih =>
    rw [search]
    split
    · rename_i digits hfound
      exact onGrid_pos hlow (ratio_fst_pos e k) hfound
    · apply ih
      rwa [show k - 1 - (grids : Int) = k - (grids + 1 : Nat) by omega]

/-- Powers of ten are compared with powers of two by `2^13 ≤ 10^4`. -/
theorem two_pow_le_ten_pow (n : Nat) : Nat.pow 2 (13 * (n / 4)) ≤ Nat.pow 10 n :=
  calc 2 ^ (13 * (n / 4)) = (2 ^ 13) ^ (n / 4) := Nat.pow_mul ..
    _ ≤ (10 ^ 4) ^ (n / 4) := Nat.pow_le_pow_left (by decide) _
    _ = 10 ^ (4 * (n / 4)) := (Nat.pow_mul ..).symm
    _ ≤ 10 ^ n := Nat.pow_le_pow_right (by decide) (by omega)

/-- Powers of ten are compared with powers of two by `10^3 ≤ 2^10`. -/
theorem ten_pow_le_two_pow (n : Nat) : Nat.pow 10 n ≤ Nat.pow 2 (10 * (n / 3 + 1)) :=
  calc 10 ^ n ≤ 10 ^ (3 * (n / 3 + 1)) := Nat.pow_le_pow_right (by decide) (by omega)
    _ = (10 ^ 3) ^ (n / 3 + 1) := Nat.pow_mul ..
    _ ≤ (2 ^ 10) ^ (n / 3 + 1) := Nat.pow_le_pow_left (by decide) _
    _ = 2 ^ (10 * (n / 3 + 1)) := (Nat.pow_mul ..).symm

/-- **The number is at least one step of the last grid.** -/
theorem den_le_last {m : Nat} {e : Int} (hm : 0 < m) (range : InRange m e) {k : Int}
    (hk : k = ((m.log2 : Int) + 1 + e) * 30103 / 100000 - 20) :
    (ratio e k).2 ≤ 4 * m * (ratio e k).1 := by
  have hlog : m.log2 ≤ 52 := by
    have := (Nat.log2_lt (Nat.ne_of_gt hm)).2 range.mantissa_lt
    omega
  have hpow : 2 ^ m.log2 ≤ m := Nat.log2_self_le (Nat.ne_of_gt hm)
  obtain ⟨_, hlow, hhigh⟩ := range
  simp only [ratio, Nat.pow_eq]
  have hvalue : 2 ^ (m.log2 + 2) * (2 ^ (e - 2).toNat * 10 ^ (-k).toNat) ≤
      4 * m * (2 ^ (e - 2).toNat * 10 ^ (-k).toNat) := by
    apply Nat.mul_le_mul_right
    rw [Nat.pow_add]
    omega
  refine Nat.le_trans ?_ hvalue
  generalize m.log2 = l at *
  rcases Int.le_total k 0 with hneg | hpos
  · -- the power of ten is on the side of the number
    rw [show k.toNat = 0 by omega, Nat.pow_zero, Nat.one_mul]
    calc 2 ^ (2 - e).toNat
        ≤ 2 ^ (l + 2 + ((e - 2).toNat + 13 * ((-k).toNat / 4))) :=
          Nat.pow_le_pow_right (by decide) (by omega)
      _ = 2 ^ (l + 2) * (2 ^ (e - 2).toNat * 2 ^ (13 * ((-k).toNat / 4))) := by
          rw [Nat.pow_add, Nat.pow_add 2 (e - 2).toNat]
      _ ≤ 2 ^ (l + 2) * (2 ^ (e - 2).toNat * 10 ^ (-k).toNat) :=
          Nat.mul_le_mul_left _ (Nat.mul_le_mul_left _ (two_pow_le_ten_pow _))
  · -- the power of ten is on the side of the step
    rw [show (-k).toNat = 0 by omega, Nat.pow_zero, Nat.mul_one]
    calc 10 ^ k.toNat * 2 ^ (2 - e).toNat
        ≤ 2 ^ (10 * (k.toNat / 3 + 1)) * 2 ^ (2 - e).toNat :=
          Nat.mul_le_mul_right _ (ten_pow_le_two_pow _)
      _ = 2 ^ (10 * (k.toNat / 3 + 1) + (2 - e).toNat) := (Nat.pow_add ..).symm
      _ ≤ 2 ^ (l + 2 + (e - 2).toNat) := Nat.pow_le_pow_right (by decide) (by omega)
      _ = 2 ^ (l + 2) * 2 ^ (e - 2).toNat := Nat.pow_add ..

end Shortest

/-- **The fewest digits of a positive number are not zero.** -/
theorem shortest_pos (tie : Tie) {m : Nat} {e : Int} (hm : 0 < m) (range : InRange m e) :
    0 < (shortest tie m e).digits := by
  apply Shortest.search_pos (Shortest.interval_low_pos hm e)
  exact Shortest.den_le_last hm range (by omega)

/-! ## The parts of a number -/

/-- The parts that a pattern of bits encodes are those of a binary64 number. -/
theorem inRange_of_ofBits {bits : Nat} {negative : Bool} {m : Nat} {e : Int}
    (h : Binary.ofBits bits = .finite negative m e) : InRange m e := by
  have hfraction : bits % 2 ^ 52 < 2 ^ 52 := Nat.mod_lt _ (by decide)
  have hfield : bits / 2 ^ 52 % 2 ^ 11 < 2 ^ 11 := Nat.mod_lt _ (by decide)
  simp only [Binary.ofBits, Nat.pow_eq] at h
  suffices hm : m < 2 ^ 53 ∧ -1074 ≤ e ∧ e ≤ 971 from ⟨hm.1, hm.2.1, hm.2.2⟩
  split at h
  · split at h <;> cases h
  · split at h
    · cases h
      omega
    · cases h
      omega

theorem inRange_of_ofFloat {x : Float} {negative : Bool} {m : Nat} {e : Int}
    (h : Binary.ofFloat x = .finite negative m e) : InRange m e :=
  inRange_of_ofBits h

end Number
end Stylus
