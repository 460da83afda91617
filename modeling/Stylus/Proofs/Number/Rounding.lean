import Mathlib
import Stylus.Proofs.Number.Zero

/-!
# How large a rounded number can be

Binary64 numbers are sums, products and quotients rounded, and a number that is rounded up too far
is not finite any more.  So it matters how far rounding goes: a number that does not exceed the
largest one below a limit, which is a power of two, does not exceed it when it is rounded.

* `Below` — a finite number below a limit;
* `below_round` — **rounding keeps a number below the limit**;
* `below_pack` — so does putting it into 64 bits;
* `Below.add`, `Below.mul`, `below_div` — what that comes to for sums, products and quotients;
* `AtLeast`, `atLeast_round`, `atLeast_pack` — the same for numbers that are not small.
-/

set_option autoImplicit false

namespace Stylus

namespace Number

open Float.Model Float.Model.UnpackedFloat

/-! ## Rounding -/

/-- A finite number smaller than `2^(limit + 53)`: zero, or with no larger exponent than `limit`. -/
inductive Below (limit : Int) : UnpackedFloat → Prop where
  | zero (s : Sign) : Below limit (.zero s)
  | finite {s : Sign} {m : Nat} {e : Int} {pos : 0 < m} (le : e ≤ limit) :
    Below limit (.finite s m e pos)

theorem Below.mono {limit limit' : Int} (h : limit ≤ limit') {x : UnpackedFloat} :
    Below limit x → Below limit' x
  | zero s => zero s
  | finite le => finite (Int.le_trans le h)

theorem shiftRight_succ (em : ExtendedMantissa) (n : Nat) :
    em >>> (n + 1) = (em >>> n).shiftRightOne :=
  rfl

theorem shiftRight_mantissa (em : ExtendedMantissa) (n : Nat) :
    (em >>> n).mantissa = em.mantissa / 2 ^ n := by
  induction n with
  | zero => exact (Nat.div_one _).symm
  | succ n ih =>
    rw [shiftRight_succ, Nat.pow_succ, ← Nat.div_div_eq_div_mul, ← ih]
    rfl

/-- Nothing has been cut off behind the mantissa. -/
def Uncut (em : ExtendedMantissa) : Prop :=
  em.roundBit = false ∧ em.stickyBit = false

theorem Uncut.rounded {em : ExtendedMantissa} (h : Uncut em) :
    em.roundedMantissa = em.mantissa := by
  obtain ⟨m, round, sticky⟩ := em
  obtain ⟨rfl, rfl⟩ := h
  rfl

theorem rounded_le (em : ExtendedMantissa) : em.roundedMantissa ≤ em.mantissa + 1 := by
  obtain ⟨m, round, sticky⟩ := em
  match round, sticky with
  | false, false => exact Nat.le_succ m
  | false, true => exact Nat.le_succ m
  | true, false => exact Nat.add_le_add_left (Nat.le_of_lt_succ (Nat.mod_lt m Nat.two_pos)) m
  | true, true => exact Nat.le_refl _

/-- Zeros at the end of a mantissa can be cut off. -/
theorem Uncut.shiftRight {em : ExtendedMantissa} (h : Uncut em) {n : Nat}
    (hn : 2 ^ n ∣ em.mantissa) : Uncut (em >>> n) := by
  induction n with
  | zero => exact h
  | succ n ih =>
    obtain ⟨hround, hsticky⟩ := ih (Nat.dvd_trans (Nat.pow_dvd_pow 2 (Nat.le_succ n)) hn)
    obtain ⟨k, hk⟩ := hn
    have heven : (em >>> n).mantissa = 2 * k := by
      rw [shiftRight_mantissa, hk, Nat.pow_succ, Nat.mul_assoc,
        Nat.mul_div_cancel_left _ (Nat.two_pow_pos n)]
    rw [shiftRight_succ]
    refine ⟨?_, ?_⟩
    · simp [ExtendedMantissa.shiftRightOne, heven]
    · simp [ExtendedMantissa.shiftRightOne, hround, hsticky]

theorem mantissa_ofMantissaAndAccuracy (m : Nat) (a : Accuracy) :
    (ExtendedMantissa.ofMantissaAndAccuracy m a).mantissa = m := by
  match a with
  | .exact | .inexact .lt | .inexact .eq | .inexact .gt => rfl

/-- The largest mantissa. -/
def topMantissa : Nat := 2 ^ 53 - 1

theorem targetExponent_eq (total : Int) :
    Format.binary64.targetExponent total = max (total - 53) (-1074) :=
  rfl

/-- The exponent to which a mantissa is rounded is not above the limit if the number is not. -/
theorem targetExponent_le {limit : Int} (hlimit : -1074 ≤ limit) {m : Nat} {e : Int}
    (he : e ≤ limit) (hm : m ≤ topMantissa * 2 ^ (limit - e).toNat) :
    Format.binary64.targetExponent (totalExponent m e) ≤ limit := by
  have hlog : (m.log2 : Int) < 53 + (limit - e) := by
    rcases Nat.eq_zero_or_pos m with rfl | hpos
    · rw [Nat.log2_zero]
      omega
    · have hlt : m < 2 ^ (53 + (limit - e).toNat) := by
        rw [Nat.pow_add]
        exact Nat.lt_of_le_of_lt hm (Nat.mul_lt_mul_of_pos_right (by decide) (Nat.two_pow_pos _))
      have := (Nat.log2_lt (Nat.ne_of_gt hpos)).mpr hlt
      omega
  rw [targetExponent_eq, totalExponent]
  omega

theorem shift_exponent_le {limit : Int} (hlimit : -1074 ≤ limit) {m : Nat} {e : Int}
    (he : e ≤ limit) (hm : m ≤ topMantissa * 2 ^ (limit - e).toNat) (a : Accuracy) :
    (shiftToTargetExponent Format.binary64 m e a).2 ≤ limit := by
  have := targetExponent_le hlimit he hm
  simp only [shiftToTargetExponent, shiftToExponent]
  omega

/-- Rounded, a mantissa still leaves the number below the limit: it is increased only where
something was cut off, and then it was not the largest one. -/
theorem shift_rounded_le {limit : Int} (hlimit : -1074 ≤ limit) {m : Nat} {e : Int} (he : e ≤ limit)
    (hm : m ≤ topMantissa * 2 ^ (limit - e).toNat) {a : Accuracy}
    (ha : a = .exact ∨ m < topMantissa * 2 ^ (limit - e).toNat) :
    (shiftToTargetExponent Format.binary64 m e a).1.roundedMantissa ≤
      topMantissa * 2 ^ (limit - (shiftToTargetExponent Format.binary64 m e a).2).toNat := by
  have htarget := shift_exponent_le hlimit he hm a
  simp only [shiftToTargetExponent, shiftToExponent] at htarget ⊢
  generalize (Format.binary64.targetExponent (totalExponent m e) - e).toNat = n at *
  rw [show (limit - e).toNat = (limit - (e + n)).toNat + n by omega, Nat.pow_add, ← Nat.mul_assoc]
    at hm ha
  generalize topMantissa * 2 ^ (limit - (e + n)).toNat = top at *
  have hmantissa : (ExtendedMantissa.ofMantissaAndAccuracy m a >>> n).mantissa = m / 2 ^ n := by
    rw [shiftRight_mantissa, mantissa_ofMantissaAndAccuracy]
  rcases Nat.lt_or_ge (m / 2 ^ n) top with hlt | hge
  · exact Nat.le_trans (rounded_le _) (hmantissa ▸ hlt)
  · -- the number is the largest one below the limit, and nothing is cut off
    have hle : top * 2 ^ n ≤ m := (Nat.le_div_iff_mul_le (Nat.two_pow_pos n)).mp hge
    obtain rfl : a = .exact := ha.resolve_right (Nat.not_lt.mpr hle)
    obtain rfl : m = top * 2 ^ n := Nat.le_antisymm hm hle
    have huncut : Uncut (ExtendedMantissa.ofMantissaAndAccuracy (top * 2 ^ n) .exact >>> n) :=
      Uncut.shiftRight ⟨rfl, rfl⟩ (Nat.dvd_mul_left _ _)
    refine Nat.le_of_eq ?_
    rw [huncut.rounded, hmantissa, Nat.mul_div_cancel _ (Nat.two_pow_pos n)]

/-- **Rounding keeps a number below the limit**, if it does not exceed the largest one that is. -/
theorem below_round {limit : Int} (hlimit : -1074 ≤ limit) {m : Nat} {e : Int} (he : e ≤ limit)
    (hm : m ≤ topMantissa * 2 ^ (limit - e).toNat) {a : Accuracy}
    (ha : a = .exact ∨ m < topMantissa * 2 ^ (limit - e).toNat) (s : Sign) :
    Below limit (roundWithAccuracy Format.binary64 s m e a) := by
  have hfirst := shift_exponent_le hlimit he hm a
  have hrounded := shift_rounded_le hlimit he hm ha
  have hsecond := shift_exponent_le hlimit hfirst hrounded .exact
  rw [roundWithAccuracy]
  dsimp only
  split
  · exact .zero s
  · exact .finite hsecond

/-- A number that is written with more bits does not change. -/
theorem below_roundExact {limit : Int} (hlimit : -1074 ≤ limit) {m : Nat} {e : Int} (he : e ≤ limit)
    (hm : m ≤ topMantissa * 2 ^ (limit - e).toNat) (s : Sign) :
    Below limit (UnpackedFloat.round Format.binary64 s m e) := by
  rw [UnpackedFloat.round, decreaseExponent]
  dsimp only
  generalize (e - Format.binary64.targetExponent (totalExponent m e)).toNat = n
  refine below_round hlimit (by omega) ?_ (.inl rfl) s
  rw [Nat.shiftLeft_eq, show (limit - (e - n)).toNat = (limit - e).toNat + n by omega, Nat.pow_add,
    ← Nat.mul_assoc]
  exact Nat.mul_le_mul_right _ hm

theorem below_normalize {limit : Int} (hlimit : -1074 ≤ limit) {m : Int} {e : Int} (he : e ≤ limit)
    (hm : m.natAbs ≤ topMantissa * 2 ^ (limit - e).toNat) (s : Sign) :
    Below limit (UnpackedFloat.normalize Format.binary64 m e s) := by
  rw [UnpackedFloat.normalize]
  split
  · exact below_roundExact hlimit he (Nat.le_trans (by omega) hm) _
  · exact .zero _
  · exact below_roundExact hlimit he (Nat.le_trans (by omega) hm) _

/-! ## Packed numbers -/

theorem exponentBias_eq : (Format.binary64.exponentBias : Int) = 1023 :=
  rfl

/-- An exponent as it is packed. -/
theorem biased_eq (e : Int) :
    (e + Format.binary64.exponentBias + Format.binary64.mantissaBitsWithoutImplicit : Int).toNat =
      (e + 1075).toNat := by
  show (e + (1023 : Nat) + (52 : Nat) : Int).toNat = _
  omega

theorem toNat_biased {e : Int} (h : e ≤ 971) :
    (BitVec.ofNat 11 (e + 1075).toNat).toNat = (e + 1075).toNat :=
  Nat.mod_eq_of_lt (by omega)

theorem below_unpack {v : BitVec Format.binary64.numBits} {limit : Int} (hlimit : -1074 ≤ limit)
    (hfinite : (unpackExponent v).toNat < 2047)
    (hle : ((unpackExponent v).toNat : Int) ≤ limit + 1075) :
    Below limit (UnpackedFloat.unpack Format.binary64 v) := by
  have hones : unpackExponent v ≠ -1#_ := by
    intro h
    rw [h] at hfinite
    exact absurd hfinite (by decide)
  rw [UnpackedFloat.unpack]
  dsimp only
  rw [if_neg hones]
  split
  · rename_i hzero
    split
    · exact .zero _
    · refine .finite ?_
      rw [exponentBias_eq, hzero]
      show 0 - (1023 + (52 : Int)) + 1 ≤ limit
      omega
  · refine .finite ?_
    rw [exponentBias_eq]
    show ((unpackExponent v).toNat : Int) - (1023 + 52) ≤ limit
    omega

/-- Packing changes nothing of numbers below the limit of all finite ones. -/
theorem below_pack {limit : Int} (hlimit : -1074 ≤ limit) (htop : limit ≤ 971) {x : UnpackedFloat}
    (hx : Below limit x) : Below limit (Float.Model.pack x).unpack := by
  cases hx with
  | zero s =>
    rw [unpack_pack_zero]
    exact .zero s
  | @finite s m e pos he =>
    show Below limit (UnpackedFloat.unpack Format.binary64 (UnpackedFloat.pack Format.binary64 _))
    rw [UnpackedFloat.pack]
    dsimp only
    rw [biased_eq, if_neg (show ¬ 2 ^ 11 ≤ (e + 1075).toNat + 1 by omega)]
    split
    · apply below_unpack hlimit
      · rw [unpackExponent_packComponents, toNat_biased (Int.le_trans he htop)]
        omega
      · rw [unpackExponent_packComponents, toNat_biased (Int.le_trans he htop)]
        omega
    · apply below_unpack hlimit
      · rw [unpackExponent_packComponents]
        exact Nat.zero_lt_succ _
      · rw [unpackExponent_packComponents]
        show (0 : Int) ≤ _
        omega

/-- The mantissa and the exponent are those of a number that can be packed. -/
def Sized : UnpackedFloat → Prop
  | .finite _ m e _ => m ≤ topMantissa ∧ -1074 ≤ e
  | _ => True

theorem sized_unpack (x : Float.Model) : Sized x.unpack := by
  rw [Float.Model.unpack, UnpackedFloat.unpack]
  dsimp only
  split
  · split <;> exact trivial
  · split
    · split
      · exact trivial
      · rename_i h _
        refine ⟨?_, ?_⟩
        · have := (@unpackMantissa Format.binary64 x.toBits.toBitVec).isLt
          exact Nat.le_of_lt (Nat.lt_trans this (by decide))
        · rw [h, exponentBias_eq]
          decide
    · rename_i hzero
      refine ⟨Nat.le_sub_one_of_lt (BitVec.isLt _), ?_⟩
      rw [exponentBias_eq]
      show -1074 ≤ ((@unpackExponent Format.binary64 x.toBits.toBitVec).toNat : Int) -
        (1023 + 52)
      have : (@unpackExponent Format.binary64 x.toBits.toBitVec).toNat ≠ 0 :=
        fun h => hzero (BitVec.eq_of_toNat_eq h)
      omega

/-! ## Sums and quotients -/

theorem Below.neg {limit : Int} {x : UnpackedFloat} : Below limit x → Below limit x.neg
  | zero s => zero (-s)
  | finite le => finite le

theorem natAbs_apply : ∀ (s : Sign) (n : Nat), (s.apply n).natAbs = n
  | .negative, n => Int.natAbs_neg n
  | .positive, _ => rfl

/-- The sum of two numbers is at most twice the larger one. -/
theorem Below.add {limit : Int} (hlimit : -1074 ≤ limit) {x y : UnpackedFloat} (hx : Below limit x)
    (hy : Below limit y) (sx : Sized x) (sy : Sized y) :
    Below (limit + 1) (UnpackedFloat.add Format.binary64 x y) := by
  have hmono {z : UnpackedFloat} : Below limit z → Below (limit + 1) z := Below.mono (by omega)
  match hx, hy, sx, sy with
  | .zero s, .zero t, _, _ =>
    show Below _ (if (s == t) = true then .zero s else .zero .positive)
    split
    · exact .zero s
    · exact .zero .positive
  | .zero _, .finite le, _, _ => exact hmono (.finite le)
  | .finite le, .zero _, _, _ => exact hmono (.finite le)
  | @Below.finite _ s₁ m₁ e₁ _ he₁, @Below.finite _ s₂ m₂ e₂ _ he₂, ⟨hm₁, _⟩, ⟨hm₂, _⟩ =>
    rw [UnpackedFloat.add, decreaseExponent, decreaseExponent]
    dsimp only
    generalize hleast : min e₁ e₂ = e
    have hpart {m : Nat} {e' : Int} (hm : m ≤ topMantissa) (he : e ≤ e') (he' : e' ≤ limit) :
        m <<< (e' - e).toNat ≤ topMantissa * 2 ^ (limit - e).toNat := by
      rw [Nat.shiftLeft_eq]
      exact Nat.mul_le_mul hm (Nat.pow_le_pow_right (by decide) (by omega))
    refine below_normalize (by omega) (by omega) ?_ _
    rw [show (limit + 1 - e).toNat = (limit - e).toNat + 1 by omega, Nat.pow_succ, ← Nat.mul_assoc]
    refine Nat.le_trans (Int.natAbs_add_le _ _) ?_
    rw [natAbs_apply, natAbs_apply, Nat.mul_two]
    exact Nat.add_le_add (hpart hm₁ (by omega) he₁) (hpart hm₂ (by omega) he₂)

/-- A product has twice as many digits. -/
theorem Below.mul {limit limit' : Int} (hlimit : -1074 ≤ limit + limit' + 53) {x y : UnpackedFloat}
    (hx : Below limit x) (hy : Below limit' y) (sx : Sized x) (sy : Sized y) :
    Below (limit + limit' + 53) (UnpackedFloat.mul Format.binary64 x y) := by
  match hx, hy, sx, sy with
  | .zero _, .zero _, _, _ | .zero _, .finite _, _, _ | .finite _, .zero _, _, _ => exact .zero _
  | @Below.finite _ _ m₁ e₁ _ he₁, @Below.finite _ _ m₂ e₂ _ he₂, ⟨hm₁, _⟩, ⟨hm₂, _⟩ =>
    refine below_round hlimit (by omega) (Nat.mul_le_mul hm₁ ?_) (.inl rfl) _
    calc m₂ ≤ 2 ^ 53 := Nat.le_trans hm₂ (by decide)
      _ ≤ 2 ^ (limit + limit' + 53 - (e₁ + e₂)).toNat := Nat.pow_le_pow_right (by decide) (by omega)

/-- A quotient by a number that is not subnormal is as small as the exponents say. -/
theorem below_div {m₁ m₂ : Nat} {e₁ e₂ : Int} (hm₁ : m₁ ≤ topMantissa) (hm₂ : 2 ^ 52 ≤ m₂)
    (s₁ s₂ : Sign) (p₁ : 0 < m₁) (p₂ : 0 < m₂) :
    Below (max (e₁ - e₂ - 52) (-1074))
      (UnpackedFloat.div Format.binary64 (.finite s₁ m₁ e₁ p₁) (.finite s₂ m₂ e₂ p₂)) := by
  have hlog₁ : m₁.log2 ≤ 52 := by
    have : m₁ < 2 ^ 53 := Nat.lt_of_le_of_lt hm₁ (by decide)
    have := (Nat.log2_lt (Nat.ne_of_gt p₁)).mpr this
    omega
  have hlog₂ : 52 ≤ m₂.log2 := (Nat.le_log2 (Nat.ne_of_gt p₂)).mpr hm₂
  rw [UnpackedFloat.div, divCore]
  dsimp only
  rw [targetExponent_eq, totalExponent, totalExponent]
  generalize hlimit : max (e₁ - e₂ - 52) (-1074) = limit
  generalize hleast : min (e₁ - e₂) _ = e
  generalize hshift : (e₁ - e₂ - e).toNat = shift
  have he : e ≤ limit := by omega
  -- the dividend, in units of the quotient, is not above the largest quotient times the divisor
  have hle : m₁ <<< shift ≤ topMantissa * 2 ^ (limit - e).toNat * m₂ := by
    calc m₁ <<< shift = m₁ * 2 ^ shift := Nat.shiftLeft_eq _ _
      _ ≤ topMantissa * 2 ^ ((limit - e).toNat + 52) :=
        Nat.mul_le_mul hm₁ (Nat.pow_le_pow_right (by decide) (by omega))
      _ = topMantissa * 2 ^ (limit - e).toNat * 2 ^ 52 := by rw [Nat.pow_add, Nat.mul_assoc]
      _ ≤ topMantissa * 2 ^ (limit - e).toNat * m₂ := Nat.mul_le_mul_left _ hm₂
  generalize m₁ <<< shift = m at *
  refine below_round (by omega) he (Nat.div_le_of_le_mul (Nat.mul_comm m₂ _ ▸ hle)) ?_ _
  rcases Nat.eq_zero_or_pos (m % m₂) with hexact | hrest
  · exact .inl (if_pos hexact)
  · right
    have hsplit := Nat.div_add_mod m m₂
    refine Nat.lt_of_mul_lt_mul_left (a := m₂) ?_
    rw [Nat.mul_comm m₂ (topMantissa * _)]
    omega

/-! ## Numbers that are not small -/

/-- A magnitude of at least `2^exponent`, of a number that is not subnormal. -/
inductive AtLeast (exponent : Int) : UnpackedFloat → Prop where
  | finite {s : Sign} {m : Nat} {e : Int} {pos : 0 < m} (low : 2 ^ 52 ≤ m) (top : m ≤ topMantissa)
    (le : exponent - 52 ≤ e) : AtLeast exponent (.finite s m e pos)

instance (exponent : Int) : DecidablePred (AtLeast exponent)
  | .finite _ m e _ =>
    decidable_of_iff (2 ^ 52 ≤ m ∧ m ≤ topMantissa ∧ exponent - 52 ≤ e)
      ⟨fun ⟨low, top, le⟩ => .finite low top le, fun | .finite low top le => ⟨low, top, le⟩⟩
  | .zero _ | .infinity _ | .notANumber => isFalse nofun

/-- Shifted to where it is rounded, a mantissa of at least 53 bits has just 53. -/
theorem shift_normal {m : Nat} {e : Int} (hm : 2 ^ 52 ≤ m) (he : 0 ≤ m.log2 + e) (a : Accuracy) :
    2 ^ 52 ≤ (shiftToTargetExponent Format.binary64 m e a).1.mantissa ∧
      (shiftToTargetExponent Format.binary64 m e a).1.mantissa ≤ topMantissa ∧
      -52 ≤ (shiftToTargetExponent Format.binary64 m e a).2 := by
  have hpos : m ≠ 0 := Nat.ne_of_gt (Nat.lt_of_lt_of_le (by decide) hm)
  have hlog : 52 ≤ m.log2 := (Nat.le_log2 hpos).mpr hm
  simp only [shiftToTargetExponent, shiftToExponent, targetExponent_eq, totalExponent,
    shiftRight_mantissa, mantissa_ofMantissaAndAccuracy]
  rw [show (max (m.log2 + 1 + e - 53) (-1074) - e).toNat = m.log2 - 52 by omega]
  refine ⟨?_, Nat.le_sub_one_of_lt ?_, by omega⟩
  · rw [Nat.le_div_iff_mul_le (Nat.two_pow_pos _), ← Nat.pow_add, Nat.add_sub_cancel' hlog]
    exact Nat.log2_self_le hpos
  · rw [Nat.div_lt_iff_lt_mul (Nat.two_pow_pos _), ← Nat.pow_add,
      show 53 + (m.log2 - 52) = m.log2 + 1 by omega]
    exact Nat.lt_log2_self

theorem le_rounded (em : ExtendedMantissa) : em.mantissa ≤ em.roundedMantissa := by
  obtain ⟨m, round, sticky⟩ := em
  match round, sticky with
  | false, false | false, true => exact Nat.le_refl m
  | true, false => exact Nat.le_add_right m _
  | true, true => exact Nat.le_succ m

theorem atLeast_round {m : Nat} {e : Int} (hm : 2 ^ 52 ≤ m) (he : 0 ≤ m.log2 + e) (a : Accuracy)
    (s : Sign) : AtLeast 0 (roundWithAccuracy Format.binary64 s m e a) := by
  obtain ⟨hfirst, -, hexponent⟩ := shift_normal hm he a
  have hrounded := Nat.le_trans hfirst (le_rounded _)
  have hlog := (Nat.le_log2 (Nat.ne_of_gt (Nat.lt_of_lt_of_le (by decide) hrounded))).mpr hrounded
  obtain ⟨hsecond, htop, hexponent⟩ := shift_normal
    (e := (shiftToTargetExponent Format.binary64 m e a).2) hrounded (by omega) .exact
  rw [roundWithAccuracy]
  dsimp only
  rw [dif_neg (Nat.ne_of_gt (Nat.lt_of_lt_of_le (by decide) hsecond))]
  exact .finite hsecond htop hexponent

theorem atLeast_pack {x : UnpackedFloat} (h : AtLeast 0 x) (hx : Below 971 x) :
    AtLeast 0 (Float.Model.pack x).unpack := by
  match hx, h with
  | @Below.finite _ s m e _ hle, .finite hlow htop he =>
    have hlog : m.log2 + 1 = Format.binary64.mantissaBits := by
      show m.log2 + 1 = 53
      have hpos : m ≠ 0 := Nat.ne_of_gt (Nat.lt_of_lt_of_le (by decide) hlow)
      have := (Nat.le_log2 hpos).mpr hlow
      have := (Nat.log2_lt hpos).mpr (Nat.lt_of_le_of_lt htop (by decide : topMantissa < 2 ^ 53))
      omega
    have hnat := toNat_biased hle
    show AtLeast 0 (UnpackedFloat.unpack Format.binary64 (UnpackedFloat.pack Format.binary64 _))
    rw [UnpackedFloat.pack]
    dsimp only
    rw [biased_eq, if_neg (show ¬ 2 ^ 11 ≤ (e + 1075).toNat + 1 by omega), if_pos hlog,
      UnpackedFloat.unpack]
    dsimp only
    rw [unpackExponent_packComponents, if_neg, if_neg]
    · refine .finite ?_ (Nat.le_sub_one_of_lt (BitVec.isLt _)) ?_
      · rw [BitVec.toNat_append]
        exact Nat.left_le_or
      · rw [hnat]
        show 0 - 52 ≤ ((e + 1075).toNat : Int) - (1023 + 52)
        omega
    · intro h
      have := hnat.symm.trans (congrArg BitVec.toNat h)
      rw [show (0#11).toNat = 0 from rfl] at this
      omega
    · intro h
      have := hnat.symm.trans (congrArg BitVec.toNat h)
      rw [show (-1#11).toNat = 2047 from rfl] at this
      omega

end Number

end Stylus
