import Mathlib
import ScopeComplexity.Measure

namespace ScopeComplexity.Decimal

open Float.Model (Format UnpackedFloat totalExponent)
open Float.Model.UnpackedFloat hiding ofNat ofInt pack unpack add normalize round

def Binary64.value? : Binary64 → Option Rat
  | .finite negative mantissa exponent =>
    some ((if negative then -1 else 1) * mantissa * 2 ^ exponent)
  | .infinite _ => none
  | .notANumber => none

/-- A double stands for an exact number. -/
def Exactly (x : Rat) (y : Float) : Prop := (Binary64.ofFloat y).value? = some x

def whole (n : Nat) : Float := .ofModel (.ofNat n)

def spare (n : Nat) : Nat := 52 - n.log2

def aligned (n : Nat) : Nat := n * 2 ^ spare n

theorem aligned_pos {n : Nat} (positive : 0 < n) : 0 < aligned n :=
  Nat.mul_pos positive (Nat.two_pow_pos _)

theorem log2_mul_two_pow {n : Nat} (positive : 0 < n) (k : Nat) : (n * 2 ^ k).log2 = n.log2 + k := by
  induction k with
  | zero => simp
  | succ k ih =>
    have nonzero : n * 2 ^ k ≠ 0 := (Nat.mul_pos positive (Nat.two_pow_pos k)).ne'
    rw [Nat.pow_succ, ← Nat.mul_assoc, Nat.mul_comm _ 2, Nat.log2_two_mul nonzero, ih, Nat.add_assoc]

theorem log2_le_of_lt {n : Nat} (positive : 0 < n) (small : n < 2 ^ 53) : n.log2 ≤ 52 :=
  Nat.le_of_lt_succ ((Nat.log2_lt positive.ne').2 small)

theorem log2_aligned {n : Nat} (positive : 0 < n) (small : n < 2 ^ 53) : (aligned n).log2 = 52 := by
  have bits := log2_le_of_lt positive small
  rw [aligned, log2_mul_two_pow positive, spare]
  omega

theorem shiftRight_mul_two_pow (m k : Nat) :
    (⟨m * 2 ^ k, false, false⟩ : ExtendedMantissa) >>> k = ⟨m, false, false⟩ := by
  induction k generalizing m with
  | zero => simp [HShiftRight.hShiftRight, Nat.repeat]
  | succ k ih =>
    have halves : m * 2 ^ (k + 1) = m * 2 * 2 ^ k := by rw [Nat.pow_succ, Nat.mul_comm _ 2, Nat.mul_assoc]
    change ((⟨m * 2 ^ (k + 1), false, false⟩ : ExtendedMantissa) >>> k).shiftRightOne = _
    rw [halves, ih]
    simp [ExtendedMantissa.shiftRightOne]

theorem targetExponent_mul_two_pow {n : Nat} (positive : 0 < n) (small : n < 2 ^ 53) (k : Nat) :
    Format.binary64.targetExponent (totalExponent (n * 2 ^ k) (-k)) = -(spare n : Int) := by
  have bits := log2_le_of_lt positive small
  simp only [Format.targetExponent, totalExponent, log2_mul_two_pow positive, Format.mantissaBits,
    Format.minExponent, spare]
  omega

theorem shiftToTargetExponent_mul_two_pow {n : Nat} (positive : 0 < n) (small : n < 2 ^ 53) {k : Nat}
    (le : spare n ≤ k) :
    shiftToTargetExponent Format.binary64 (n * 2 ^ k) (-k) .exact
      = (⟨aligned n, false, false⟩, -(spare n : Int)) := by
  obtain ⟨extra, rfl⟩ := Nat.exists_eq_add_of_le le
  have amount : (-(spare n : Int) - -((spare n + extra : Nat) : Int)).toNat = extra := by omega
  rw [shiftToTargetExponent, targetExponent_mul_two_pow positive small, shiftToExponent, amount,
    ExtendedMantissa.ofMantissaAndAccuracy, Nat.pow_add, ← Nat.mul_assoc, shiftRight_mul_two_pow, aligned]
  congr 1
  omega

theorem roundWithAccuracy_mul_two_pow {n : Nat} (positive : 0 < n) (small : n < 2 ^ 53) {k : Nat}
    (le : spare n ≤ k) :
    roundWithAccuracy Format.binary64 .positive (n * 2 ^ k) (-k) .exact
      = .finite .positive (aligned n) (-(spare n : Int)) (aligned_pos positive) := by
  -- the second shift finds nothing left to drop
  have again := shiftToTargetExponent_mul_two_pow positive small (Nat.le_refl (spare n))
  rw [roundWithAccuracy, shiftToTargetExponent_mul_two_pow positive small le]
  simp only [ExtendedMantissa.roundedMantissa, ExtendedMantissa.accuracy, Accuracy.roundToNearestEven]
  rw [← aligned] at again
  simp only [again, (aligned_pos positive).ne', ↓reduceDIte]

theorem normalize_mul_two_pow {n : Nat} (positive : 0 < n) (small : n < 2 ^ 53) (k : Nat) :
    UnpackedFloat.normalize Format.binary64 (n * 2 ^ k : Nat) (-k) .positive
      = .finite .positive (aligned n) (-(spare n : Int)) (aligned_pos positive) := by
  have sign : compare ((n * 2 ^ k : Nat) : Int) 0 = .gt :=
    Int.compare_eq_gt.2 (Int.natCast_pos.2 (Nat.mul_pos positive (Nat.two_pow_pos k)))
  have exponent : -(k : Int) - ((-(k : Int) - -(spare n : Int)).toNat : Nat)
      = -((k + (spare n - k) : Nat) : Int) := by omega
  have amount : (-(k : Int) - -(spare n : Int)).toNat = spare n - k := by omega
  rw [UnpackedFloat.normalize, sign]
  simp only [Int.toNat_natCast, UnpackedFloat.round, targetExponent_mul_two_pow positive small, decreaseExponent]
  rw [exponent, amount, Nat.shiftLeft_eq, Nat.mul_assoc, ← Nat.pow_add]
  exact roundWithAccuracy_mul_two_pow positive small (by omega)

theorem ofNat_eq {n : Nat} (positive : 0 < n) (small : n < 2 ^ 53) :
    UnpackedFloat.ofNat Format.binary64 n
      = .finite .positive (aligned n) (-(spare n : Int)) (aligned_pos positive) := by
  have unscaled := normalize_mul_two_pow positive small 0
  simpa [UnpackedFloat.ofNat, UnpackedFloat.ofInt] using unscaled

theorem unpackSign_packComponents {spec : Format} (sign : Sign) (exponent : BitVec spec.exponentBits)
    (mantissa : BitVec spec.mantissaBitsWithoutImplicit) :
    unpackSign (packComponents spec sign exponent mantissa) = sign.toBitVec := by
  apply BitVec.eq_of_getLsbD_eq
  intro i bound
  obtain rfl : i = 0 := by omega
  simp [unpackSign, packComponents, BitVec.getLsbD_append, BitVec.getElem_append]

def exponentField (n : Nat) : Nat := n.log2 + 1023

theorem pack_ofNat {n : Nat} (positive : 0 < n) (small : n < 2 ^ 53) :
    UnpackedFloat.pack Format.binary64 (.ofNat Format.binary64 n)
      = packComponents Format.binary64 .positive (BitVec.ofNat 11 (exponentField n))
          (BitVec.ofNat 52 (aligned n)) := by
  have bits := log2_le_of_lt positive small
  have field : (-(spare n : Int) + Format.binary64.exponentBias + (52 : Nat)).toNat
      = exponentField n := by
    simp only [Format.exponentBias, spare, exponentField]
    omega
  have fits : ¬ 2 ^ 11 ≤ exponentField n + 1 := by
    rw [exponentField]
    omega
  have normal : (aligned n).log2 + 1 = Format.binary64.mantissaBits := by
    rw [log2_aligned positive small]
    rfl
  rw [ofNat_eq positive small, UnpackedFloat.pack]
  dsimp only
  rw [field, if_neg fits, if_pos normal]

theorem toNat_exponentField {n : Nat} (positive : 0 < n) (small : n < 2 ^ 53) :
    (BitVec.ofNat 11 (exponentField n)).toNat = exponentField n := by
  have bits := log2_le_of_lt positive small
  rw [BitVec.toNat_ofNat, exponentField]
  omega

theorem aligned_bounds {n : Nat} (positive : 0 < n) (small : n < 2 ^ 53) :
    2 ^ 52 ≤ aligned n ∧ aligned n < 2 ^ 53 := by
  have nonzero := (aligned_pos positive).ne'
  have log2 := log2_aligned positive small
  exact ⟨(Nat.le_log2 nonzero).1 log2.ge, (Nat.log2_lt nonzero).1 (log2.trans_lt (Nat.lt_succ_self 52))⟩

theorem toNat_aligned {n : Nat} (positive : 0 < n) (small : n < 2 ^ 53) :
    (BitVec.ofNat 52 (aligned n)).toNat + 2 ^ 52 = aligned n := by
  obtain ⟨low, high⟩ := aligned_bounds positive small
  rw [BitVec.toNat_ofNat]
  omega

theorem unpack_pack_ofNat {n : Nat} (small : n < 2 ^ 53) :
    UnpackedFloat.unpack Format.binary64 (UnpackedFloat.pack Format.binary64 (.ofNat Format.binary64 n))
      = .ofNat Format.binary64 n := by
  rcases Nat.eq_zero_or_pos n with rfl | positive
  · rfl
  · have field := toNat_exponentField positive small
    have bits := log2_le_of_lt positive small
    have notTop : BitVec.ofNat 11 (exponentField n) ≠ -1#11 := by
      intro top
      have : exponentField n = 2047 := field.symm.trans (congrArg BitVec.toNat top)
      rw [exponentField] at this
      omega
    have notZero : BitVec.ofNat 11 (exponentField n) ≠ 0#11 := by
      intro zero
      have : exponentField n = 0 := field.symm.trans (congrArg BitVec.toNat zero)
      rw [exponentField] at this
      omega
    have mantissa : (1#1 ++ BitVec.ofNat 52 (aligned n)).toNat = aligned n := by
      rw [BitVec.toNat_append, ← Nat.shiftLeft_add_eq_or_of_lt (BitVec.isLt _), Nat.add_comm]
      exact toNat_aligned positive small
    have exponent : (exponentField n : Int) - (Format.binary64.exponentBias + (52 : Nat))
        = -(spare n : Int) := by
      simp only [Format.exponentBias, exponentField, spare]
      omega
    rw [pack_ofNat positive small, UnpackedFloat.unpack]
    simp only [unpackMantissa_packComponents, unpackExponent_packComponents, unpackSign_packComponents,
      notTop, notZero, ↓reduceIte, field, mantissa, exponent]
    exact (ofNat_eq positive small).symm

theorem decreaseExponent_aligned {n k : Nat} (le : spare n ≤ k) :
    decreaseExponent (aligned n) (-(spare n : Int)) (-(k : Int)) = (n * 2 ^ k, -(k : Int)) := by
  obtain ⟨extra, rfl⟩ := Nat.exists_eq_add_of_le le
  have amount : (-(spare n : Int) - -((spare n + extra : Nat) : Int)).toNat = extra := by omega
  rw [decreaseExponent, amount, Nat.shiftLeft_eq, aligned, Nat.mul_assoc, ← Nat.pow_add]
  congr 1
  omega

theorem add_ofNat {a b : Nat} (small : a + b < 2 ^ 53) :
    UnpackedFloat.add Format.binary64 (.ofNat Format.binary64 a) (.ofNat Format.binary64 b)
      = .ofNat Format.binary64 (a + b) := by
  rcases Nat.eq_zero_or_pos a with rfl | positiveA <;> rcases Nat.eq_zero_or_pos b with rfl | positiveB
  · rfl
  · rw [Nat.zero_add, ofNat_eq positiveB (by omega)]
    rfl
  · rw [Nat.add_zero, ofNat_eq positiveA (by omega)]
    rfl
  · -- both mantissas are written for the exponent that leaves room for either
    have common : min (-(spare a : Int)) (-(spare b : Int)) = -((max (spare a) (spare b) : Nat) : Int) := by
      omega
    have positive := Nat.add_pos_left positiveA b
    rw [ofNat_eq positiveA (by omega), ofNat_eq positiveB (by omega), ofNat_eq positive small,
      ← normalize_mul_two_pow positive small (max (spare a) (spare b)), UnpackedFloat.add]
    dsimp only
    rw [common, decreaseExponent_aligned (Nat.le_max_left _ _),
      decreaseExponent_aligned (Nat.le_max_right _ _)]
    simp only [Sign.apply, Nat.add_mul, Nat.cast_add]

theorem whole_add_whole {a b : Nat} (small : a + b < 2 ^ 53) : whole a + whole b = whole (a + b) := by
  have sum := add_ofNat small
  rw [← unpack_pack_ofNat (by omega : a < 2 ^ 53), ← unpack_pack_ofNat (by omega : b < 2 ^ 53)] at sum
  exact congrArg (fun x => Float.ofModel (.pack x)) sum

theorem toNat_packComponents (exponent : BitVec 11) (mantissa : BitVec 52) :
    (packComponents Format.binary64 .positive exponent mantissa).toNat
      = exponent.toNat * 2 ^ 52 + mantissa.toNat := by
  have plain : (Sign.positive.toBitVec ++ exponent).toNat = exponent.toNat := by
    rw [BitVec.toNat_append]
    exact Nat.zero_or _
  rw [packComponents, BitVec.toNat_append, plain, ← Nat.shiftLeft_add_eq_or_of_lt (BitVec.isLt _),
    Nat.shiftLeft_eq]

theorem Binary64.ofBits_normal {field fraction : Nat} (positive : 0 < field) (finite : field < topField)
    (fits : fraction < 2 ^ 52) :
    ofBits (field * 2 ^ 52 + fraction)
      = .finite false (fraction + 2 ^ 52) (field - 1 + leastExponent) := by
  have sign : (field * 2 ^ 52 + fraction) / twoTo 63 % 2 = 0 := by
    change _ / 2 ^ 63 % 2 = 0
    rw [topField] at finite
    omega
  have exponent : (field * 2 ^ 52 + fraction) / twoTo 52 % twoTo 11 = field := by
    change _ / 2 ^ 52 % 2 ^ 11 = field
    rw [topField] at finite
    omega
  have rest : (field * 2 ^ 52 + fraction) % twoTo 52 = fraction := by
    change _ % 2 ^ 52 = fraction
    omega
  simp only [ofBits, sign, exponent, rest, beq_iff_eq, finite.ne, positive.ne', ↓reduceIte]
  rfl

theorem exactly_whole {n : Nat} (small : n < 2 ^ 53) : Exactly n (whole n) := by
  rcases Nat.eq_zero_or_pos n with rfl | positive
  · have zero : Binary64.ofFloat (whole 0) = .finite false 0 Binary64.leastExponent := by decide
    simp [Exactly, zero, Binary64.value?]
  · have bits := log2_le_of_lt positive small
    have word : (whole n).toBits.toNat
        = exponentField n * 2 ^ 52 + (BitVec.ofNat 52 (aligned n)).toNat := by
      rw [← toNat_exponentField positive small, ← toNat_packComponents, ← pack_ofNat positive small]
      rfl
    have exponent : (exponentField n : Int) - 1 + Binary64.leastExponent = -(spare n : Int) := by
      rw [exponentField, Binary64.leastExponent, spare]
      omega
    have value : (aligned n : Rat) * 2 ^ (-(spare n : Int)) = n := by
      rw [aligned, Nat.cast_mul, Nat.cast_pow, zpow_neg, zpow_natCast]
      exact mul_inv_cancel_right₀ (by positivity) _
    have notZero : 0 < exponentField n := Nat.succ_pos _
    have notTop : exponentField n < Binary64.topField := by
      rw [exponentField, Binary64.topField]
      omega
    rw [Exactly, Binary64.ofFloat, word, Binary64.ofBits_normal notZero notTop (BitVec.isLt _),
      toNat_aligned positive small, exponent, Binary64.value?]
    simp only [Bool.false_eq_true, ↓reduceIte, one_mul, value]

theorem zero_eq_whole : (0.0 : Float) = whole 0 := by decide

theorem one_eq_whole : (1.0 : Float) = whole 1 := by decide

namespace Binary64

theorem roundDiv_le (num den : Nat) : roundDiv num den ≤ num / den + 1 := by
  rw [roundDiv]
  split
  · omega
  · split <;> omega

theorem scaled_div_lt {n : Nat} {exponent : Int} (room : (n.log2 : Int) - 52 ≤ exponent) :
    (scaled n 1 (-exponent)).1 / (scaled n 1 (-exponent)).2 < 2 ^ 53 := by
  have bits : n < 2 ^ (n.log2 + 1) := Nat.lt_log2_self
  rw [scaled]
  split
  · rename_i positive
    dsimp only
    change n / (1 * 2 ^ (-exponent).natAbs) < _
    rw [one_mul, Nat.div_lt_iff_lt_mul (Nat.two_pow_pos _), ← Nat.pow_add]
    exact bits.trans_le (Nat.pow_le_pow_right (by decide) (by omega))
  · dsimp only
    change n * 2 ^ (-exponent).natAbs / 1 < _
    rw [Nat.div_one]
    calc
      n * 2 ^ (-exponent).natAbs < 2 ^ (n.log2 + 1) * 2 ^ (-exponent).natAbs :=
        Nat.mul_lt_mul_of_pos_right bits (Nat.two_pow_pos _)
      _ = 2 ^ (n.log2 + 1 + (-exponent).natAbs) := (Nat.pow_add _ _ _).symm
      _ ≤ 2 ^ 53 := Nat.pow_le_pow_right (by decide) (by omega)

theorem exponentOf_le {n : Nat} {bound : Int} (bits : (n.log2 : Int) - 52 ≤ bound) (least : leastExponent < bound) :
    exponentOf n 1 ≤ bound := by
  have none : Nat.log2 1 = 0 := by decide
  rw [exponentOf, none]
  dsimp only
  split <;> omega

theorem quotient_exponentOf_lt (n : Nat) :
    (scaled n 1 (-exponentOf n 1)).1 / (scaled n 1 (-exponentOf n 1)).2 < 2 ^ 53 := by
  have none : Nat.log2 1 = 0 := by decide
  by_cases room : (n.log2 : Int) - 52 ≤ exponentOf n 1
  · exact scaled_div_lt room
  · rw [exponentOf, none] at room ⊢
    dsimp only at room ⊢
    split at room
    · rename_i fits
      rw [if_pos fits]
      exact fits
    · omega

end Binary64

def Binary64.wholeLimit : Nat := twoTo 1023

theorem lt_twoTo {n k : Nat} (small : n ≤ k) : n < twoTo k :=
  n.lt_two_pow_self.trans_le (Nat.pow_le_pow_right Nat.two_pos small)

theorem log2_lt_of_lt_twoTo {n k : Nat} (positive : 0 < n) (small : n < twoTo k) : n.log2 < k :=
  (Nat.log2_lt positive.ne').2 small

theorem Binary64.nearestBits_lt {n : Nat} (small : n < wholeLimit) :
    nearestBits n 1 < topField * twoTo 52 := by
  rcases Nat.eq_zero_or_pos n with rfl | positive
  · decide
  · have bits : n.log2 < 1023 := log2_lt_of_lt_twoTo positive small
    have exponent : exponentOf n 1 ≤ 970 := exponentOf_le (by omega) (by decide)
    have quotient := quotient_exponentOf_lt n
    have rounded := roundDiv_le (scaled n 1 (-exponentOf n 1)).1 (scaled n 1 (-exponentOf n 1)).2
    have field : (exponentOf n 1 - leastExponent).toNat ≤ 2044 := by
      rw [leastExponent]
      omega
    have word : (exponentOf n 1 - leastExponent).toNat * 2 ^ 52
        + roundDiv (scaled n 1 (-exponentOf n 1)).1 (scaled n 1 (-exponentOf n 1)).2 < 2047 * 2 ^ 52 := by
      omega
    rw [nearestBits, beq_eq_false_iff_ne.2 positive.ne', if_neg Bool.false_ne_true]
    exact (min_le_left _ _).trans_lt word

theorem Binary64.exists_ofInt? {n : Int} (small : n.natAbs < wholeLimit) : ∃ x, ofInt? n = some x := by
  rw [ofInt?, beq_eq_false_iff_ne.2 (nearestBits_lt small).ne]
  exact ⟨_, rfl⟩

end ScopeComplexity.Decimal
