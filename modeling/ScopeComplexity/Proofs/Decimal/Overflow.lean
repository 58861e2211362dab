import ScopeComplexity.Proofs.Decimal.Whole

namespace ScopeComplexity.Decimal

theorem twoTo_pos (k : Nat) : 0 < twoTo k := Nat.two_pow_pos k

theorem twoTo_add (j k : Nat) : twoTo (j + k) = twoTo j * twoTo k := Nat.pow_add 2 j k

theorem twoTo_le_twoTo {j k : Nat} (h : j ≤ k) : twoTo j ≤ twoTo k := Nat.pow_le_pow_right Nat.two_pos h

theorem le_log2 {n k : Nat} (nonzero : n ≠ 0) (h : twoTo k ≤ n) : k ≤ n.log2 := (Nat.le_log2 nonzero).2 h

theorem twoTo_log2_le {n : Nat} (nonzero : n ≠ 0) : twoTo n.log2 ≤ n := Nat.log2_self_le nonzero

namespace Binary64

theorem le_roundDiv (num den : Nat) : num / den ≤ roundDiv num den := by
  rw [roundDiv]
  split
  · exact le_rfl
  · split <;> omega

theorem le_roundDiv_iff {k d n : Nat} (even : k % 2 = 0) (positive : 0 < d) :
    k ≤ roundDiv n (2 * d) ↔ 2 * k * d ≤ n + d := by
  have whole := Nat.div_add_mod n (2 * d)
  have part := Nat.mod_lt n (Nat.mul_pos Nat.two_pos positive)
  rcases Nat.lt_trichotomy (n / (2 * d) + 1) k with below | next | above
  · have rounded := roundDiv_le n (2 * d)
    have step : 2 * d * (n / (2 * d) + 2) ≤ 2 * d * k := Nat.mul_le_mul_left _ below
    refine iff_of_false (by omega) ?_
    rw [Nat.mul_right_comm]
    rw [Nat.mul_add] at step
    omega
  · have step : 2 * k * d = 2 * d * (n / (2 * d)) + 2 * d := by rw [← next]; ring
    rw [step, roundDiv]
    split
    · omega
    · split <;> omega
  · have step : 2 * d * k ≤ 2 * d * (n / (2 * d)) := Nat.mul_le_mul_left _ (by omega)
    have rounded := le_roundDiv n (2 * d)
    refine iff_of_true (by omega) ?_
    rw [Nat.mul_right_comm]
    omega

theorem scaled_neg {n : Nat} {exponent : Nat} (positive : 0 < exponent) :
    scaled n 1 (-(exponent : Int)) = (n, twoTo exponent) := by
  rw [scaled, if_pos (by omega), Int.natAbs_neg, Int.natAbs_natCast, Nat.one_mul]

theorem exponentOf_of_log2 {n e : Nat} (bits : n.log2 = e + 53) (positive : 0 < e) :
    exponentOf n 1 = ((e + 1 : Nat) : Int) := by
  have nonzero : n ≠ 0 := by
    rintro rfl
    rw [Nat.log2_zero] at bits
    omega
  have one : Nat.log2 1 = 0 := by decide
  have guess : max ((n.log2 : Int) - Nat.log2 1 - 53) leastExponent = (e : Int) := by
    rw [one, leastExponent]
    omega
  have large : twoTo 53 ≤ n / twoTo e := by
    rw [Nat.le_div_iff_mul_le (twoTo_pos e), ← twoTo_add, Nat.add_comm, ← bits]
    exact twoTo_log2_le nonzero
  rw [exponentOf, guess]
  simp only [scaled_neg positive, if_neg large.not_gt]
  rfl

theorem nearestBits_of_log2 {n e : Nat} (bits : n.log2 = e + 53) (positive : 0 < e) :
    nearestBits n 1
      = min ((e + 1 + 1074) * twoTo 52 + roundDiv n (2 * twoTo e)) (topField * twoTo 52) := by
  have nonzero : n ≠ 0 := by
    rintro rfl
    rw [Nat.log2_zero] at bits
    omega
  have exponent : (((e + 1 : Nat) : Int) - leastExponent).toNat = e + 1 + 1074 := by
    rw [leastExponent]
    omega
  have double : twoTo (e + 1) = 2 * twoTo e := Nat.pow_succ'
  rw [nearestBits, beq_eq_false_iff_ne.2 nonzero, if_neg Bool.false_ne_true, exponentOf_of_log2 bits positive]
  simp only [scaled_neg (Nat.succ_pos e), exponent, double]

/-- The least whole number that is too large for a double, `2 ^ 1024 - 2 ^ 970`. -/
def overflow : Nat := (twoTo 54 - 1) * twoTo 970

theorem overflow_add : overflow + twoTo 970 = twoTo 54 * twoTo 970 := by
  rw [overflow, ← Nat.succ_mul]
  congr 1

theorem wholeLimit_le_overflow : wholeLimit ≤ overflow := by
  rw [wholeLimit, overflow, show 1023 = 53 + 970 from rfl, twoTo_add]
  exact Nat.mul_le_mul_right _ (by decide)

theorem overflow_pos : 0 < overflow := (twoTo_pos 1023).trans_le wholeLimit_le_overflow

theorem lt_overflow {n : Nat} (small : n ≤ 1023) : n < overflow := (lt_twoTo small).trans_le wholeLimit_le_overflow

theorem nearestBits_eq_top_iff {n : Nat} : nearestBits n 1 = topField * twoTo 52 ↔ overflow ≤ n := by
  by_cases small : n < wholeLimit
  · exact iff_of_false (nearestBits_lt small).ne (small.trans_le wholeLimit_le_overflow).not_ge
  · have nonzero : n ≠ 0 := by
      rintro rfl
      exact small (twoTo_pos 1023)
    have log2 : 1023 ≤ n.log2 := le_log2 nonzero (not_lt.1 small)
    obtain ⟨e, bits⟩ := Nat.exists_eq_add_of_le' (show 53 ≤ n.log2 by omega)
    have lower : twoTo 53 * twoTo e ≤ n := by
      rw [← twoTo_add, Nat.add_comm, ← bits]
      exact twoTo_log2_le nonzero
    rw [nearestBits_of_log2 bits (by omega), min_eq_right_iff]
    rcases Nat.eq_or_lt_of_le (show 970 ≤ e by omega) with rfl | more
    · have carry : topField * twoTo 52 = (970 + 1 + 1074) * twoTo 52 + twoTo 53 := by decide
      have double : 2 * twoTo 53 = twoTo 54 := by decide
      have rounded := le_roundDiv_iff (n := n) (show twoTo 53 % 2 = 0 by decide) (twoTo_pos 970)
      rw [carry, Nat.add_le_add_iff_left, rounded, double, ← overflow_add, Nat.add_le_add_iff_right]
    · have mantissa : twoTo 52 ≤ roundDiv n (2 * twoTo e) := by
        have double : twoTo 53 = twoTo 52 * 2 := by decide
        refine le_trans ?_ (le_roundDiv _ _)
        rw [Nat.le_div_iff_mul_le (Nat.mul_pos Nat.two_pos (twoTo_pos e)), ← Nat.mul_assoc, ← double]
        exact lower
      have field : topField * twoTo 52 ≤ (e + 1 + 1074) * twoTo 52 + twoTo 52 := by
        rw [← Nat.succ_mul, topField]
        exact Nat.mul_le_mul_right _ (by omega)
      have above : overflow + twoTo 970 ≤ n := by
        rw [overflow_add, show twoTo 54 = twoTo 53 * twoTo 1 by decide, Nat.mul_assoc, ← twoTo_add]
        exact (Nat.mul_le_mul_left _ (twoTo_le_twoTo (by omega))).trans lower
      exact iff_of_true (by omega) (by omega)

theorem isSome_ofInt?_iff {n : Int} : (ofInt? n).isSome ↔ n.natAbs < overflow := by
  rw [← not_le, ← nearestBits_eq_top_iff, ofInt?]
  split
  next top => simpa using top
  next fits => simpa using fits

end Binary64

end ScopeComplexity.Decimal
