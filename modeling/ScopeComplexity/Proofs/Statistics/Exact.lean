import Mathlib.Algebra.Order.Ring.Rat
import Mathlib.Data.List.Perm.Basic
import Mathlib.Data.Nat.Cast.Order.Basic
import ScopeComplexity.Proofs.Statistics.Tally

namespace ScopeComplexity

namespace Measure

@[simp] theorem add_eq (a b : Rat) : Measure.add a b = a + b := rfl

@[simp] theorem zero_eq : (Measure.zero : Rat) = 0 := rfl

@[simp] theorem one_eq : (Measure.one : Rat) = 1 := rfl

@[simp] theorem least_eq (a b : Rat) : Measure.least a b = min a b := by
  rw [Measure.least, min_def]
  change (if decide (b < a) = true then b else a) = _
  by_cases h : b < a
  · simp [h, not_le.2 h]
  · simp [h, not_lt.1 h]

@[simp] theorem greatest_eq (a b : Rat) : Measure.greatest a b = max a b := by
  rw [Measure.greatest, max_def]
  change (if decide (a < b) = true then b else a) = _
  by_cases h : a < b
  · simp [h, h.le]
  · rcases (not_lt.1 h).eq_or_lt with rfl | h'
    · simp
    · simp [h, not_le.2 h']

instance rightCommutative_add : RightCommutative (Measure.add : Rat → Rat → Rat) where
  right_comm a b c := by
    rw [add_eq, add_eq, add_eq, add_eq]
    exact add_right_comm a b c

instance rightCommutative_least : RightCommutative (Measure.least : Rat → Rat → Rat) where
  right_comm a b c := by
    rw [least_eq, least_eq, least_eq, least_eq]
    exact min_right_comm a b c

instance rightCommutative_greatest : RightCommutative (Measure.greatest : Rat → Rat → Rat) where
  right_comm a b c := by
    rw [greatest_eq, greatest_eq, greatest_eq, greatest_eq]
    exact max_right_comm a b c

theorem iterate_add_one (x : Rat) (times : Nat) :
    (Measure.add · Measure.one)^[times] x = x + times := by
  induction times with
  | zero => simp
  | succ times ih =>
    rw [Function.iterate_succ_apply', ih, add_eq, one_eq, Nat.cast_succ, add_assoc]

theorem complexity_eq (decisions : Nat) : (complexity decisions : Rat) = 1 + decisions :=
  iterate_add_one Measure.one decisions

theorem twoTo_pos (n : Nat) : 0 < Decimal.twoTo n := Nat.two_pow_pos n

theorem one_lt_ceiling : (1 : Rat) < Measure.ceiling := by
  have significand : 1 < Decimal.twoTo 53 - 1 := by decide
  have greatest : 1 < greatestFinite :=
    significand.trans_le (Nat.le_mul_of_pos_right _ (twoTo_pos 971))
  exact Nat.one_lt_cast.2 greatest

end Measure

theorem Summary.over_perm (own : Rat) {inner inner' : List (Summary Rat)} (h : inner.Perm inner') :
    Summary.over own inner = Summary.over own inner' := by
  rw [Summary.over, Summary.over, (h.map _).foldl_eq, (h.map _).foldl_eq, (h.map _).foldl_eq,
    (h.map _).foldl_eq]

end ScopeComplexity
