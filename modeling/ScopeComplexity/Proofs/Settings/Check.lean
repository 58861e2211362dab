import Mathlib.Tactic.Linarith
import ScopeComplexity.Proofs.Decimal.Scaling
import ScopeComplexity.Settings

namespace ScopeComplexity

inductive Value.StandsFor (v : Value) : Rat → Prop where
  | whole {n : Int} (number : v.number? = some (.whole n)) : StandsFor v n
  | double {x : Float} {q : Rat} (number : v.number? = some (.double x)) (exact : Decimal.Exactly q x) :
      StandsFor v q

theorem Value.lessOrEqual_of_less {v : Value} (h : v.less 1 = .ok false) : v.lessOrEqual 0 = .ok false := by
  rw [less, compare] at h
  rw [lessOrEqual, compare]
  cases number : v.number? with
  | none =>
    rw [number] at h
    cases h
  | some n =>
    rw [number] at h
    cases n with
    | whole n =>
      simp only [Except.ok.injEq, decide_eq_false_iff_not, not_lt] at h
      simp only [Except.ok.injEq, decide_eq_false_iff_not, not_le]
      omega
    | double x =>
      have zero : Decimal.Binary64.nearest false 0 1 = Decimal.whole 0 := by decide
      have one : Decimal.Binary64.nearest false 1 1 = Decimal.whole 1 := by decide
      have more : ¬x < Decimal.whole 1 := one ▸ of_decide_eq_false (Except.ok.inj h)
      have positive : ¬x ≤ Decimal.whole 0 := mt Decimal.lt_one_of_le_zero more
      exact congrArg Except.ok (decide_eq_false (zero ▸ positive))

theorem Value.more_of_less {v : Value} (h : v.less 1 = .ok false)
    (number : ∀ x, v = .double x → x.isNaN = false) : v.more 0 = .ok true := by
  have whole {n : Int} (less : Except.ok (decide (n < 1)) = (.ok false : Except Misuse Bool)) :
      Except.ok (decide (n > 0)) = (.ok true : Except Misuse Bool) := by
    simp only [Except.ok.injEq, decide_eq_false_iff_not, not_lt] at less
    simp only [Except.ok.injEq, decide_eq_true_eq]
    omega
  cases v with
  | flag value => exact whole h
  | whole n => exact whole h
  | double x =>
    have zero : Decimal.Binary64.nearest false 0 1 = Decimal.whole 0 := by decide
    have one : Decimal.Binary64.nearest false 1 1 = Decimal.whole 1 := by decide
    have notLess : ¬x < Decimal.whole 1 := one ▸ of_decide_eq_false (Except.ok.inj h)
    have positive : Decimal.whole 0 < x := Decimal.zero_lt_of_one_le (number x rfl) notLess
    exact congrArg Except.ok (decide_eq_true (zero ▸ positive))
  | _ => cases h

section NotANumber

variable {x : Float} (none : x.isNaN = true) (n : Int)

include none

theorem Value.lessOrEqual_of_isNaN : (Value.double x).lessOrEqual n = .ok false :=
  congrArg Except.ok (decide_eq_false (Decimal.not_le_of_isNaN none _))

theorem Value.more_of_isNaN : (Value.double x).more n = .ok false :=
  congrArg Except.ok (decide_eq_false (Decimal.not_lt_of_isNaN none _))

theorem Value.equals_of_isNaN : (Value.double x).equals n = false := Decimal.beq_of_isNaN none _

end NotANumber

namespace Settings

variable {s : Settings}

section Check

variable {setting : Setting} {reason : String}

theorem refuse_ne_ok {α : Type} {a : α} : s.refuse setting reason ≠ .ok a := by
  rw [refuse]
  split <;> nofun

theorem refuse_if_eq_ok_iff {bad : Bool} {rest : Except Failure Unit} :
    (do
      if bad then s.refuse setting reason
      rest) = .ok () ↔ bad = false ∧ rest = .ok () := by
  cases bad with
  | false => simp
  | true =>
    cases refused : s.refuse (α := PUnit) setting reason with
    | error e => simp [bind, Except.bind]
    | ok a => exact (refuse_ne_ok refused).elim

theorem sound_or_refuse_eq_ok_iff {compared : Except Value.Misuse Bool} {rest : Except Failure Unit} :
    (do
      if ← sound compared then s.refuse setting reason
      rest) = .ok () ↔ compared = .ok false ∧ rest = .ok () := by
  cases compared with
  | error misuse => simp [sound, Except.mapError, bind, Except.bind]
  | ok bad =>
    refine (refuse_if_eq_ok_iff (s := s)).trans ?_
    rw [Except.ok.injEq]

theorem eq_null_of_isNull {v : Value} (null : isNull v = true) : v = .null := by
  cases v with
  | null => rfl
  | _ => cases null

theorem check_eq_ok_iff : s.check = .ok () ↔
    (isNull (s.value .workers) = true ∨ (s.value .workers).less 1 = .ok false) ∧
    (s.value .maxFileSize).lessOrEqual 0 = .ok false ∧ (s.value .maxFiles).less 1 = .ok false ∧
    verbosities.any (fun word => (s.value .verbosity).isText word) = true ∧
    (isNull (s.value .languages) = true ∨ (s.value .languages).isTrue = true) := by
  have last : (if (!isNull (s.value .languages) && !(s.value .languages).isTrue) = true then
      s.refuse .languages "must not be empty" else pure ()) = .ok () ↔
      isNull (s.value .languages) = true ∨ (s.value .languages).isTrue = true := by
    cases isNull (s.value .languages) <;> cases (s.value .languages).isTrue <;>
      simp [refuse_ne_ok, pure, Except.pure]
  rw [check]
  cases null : isNull (s.value .workers) with
  | true =>
    simp only [Bool.not_true, Bool.false_eq_true, if_false]
    rw [sound_or_refuse_eq_ok_iff, sound_or_refuse_eq_ok_iff, refuse_if_eq_ok_iff, last]
    simp
  | false =>
    simp only [Bool.not_false, if_true]
    rw [sound_or_refuse_eq_ok_iff, sound_or_refuse_eq_ok_iff, sound_or_refuse_eq_ok_iff,
      refuse_if_eq_ok_iff, last]
    simp

end Check

theorem positive_of_check (checked : s.check = .ok ()) {q : Rat}
    (size : (s.value .maxFileSize).StandsFor q) : 0 < q := by
  obtain ⟨-, more, -⟩ := check_eq_ok_iff.1 checked
  cases size with
  | whole number =>
    rw [Value.lessOrEqual, Value.compare, number] at more
    simp only [Except.ok.injEq, decide_eq_false_iff_not, not_le] at more
    exact Int.cast_pos.2 more
  | double number exact =>
    have zero : Decimal.Binary64.nearest false 0 1 = Decimal.whole 0 := by decide
    rw [Value.lessOrEqual, Value.compare, number] at more
    simp only [Except.ok.injEq, decide_eq_false_iff_not] at more
    exact exact.pos (zero ▸ more)

theorem exists_byteLimit (checked : s.check = .ok ()) {megabytes : Rat}
    (stands : (s.value .maxFileSize).StandsFor megabytes)
    (finite : ∀ x, (s.value .maxFileSize).number? = some (.double x) →
      megabytes * 2 ^ 20 < Decimal.overflow) :
    ∃ limit, s.byteLimit = .ok limit := by
  have positive := positive_of_check checked stands
  rw [byteLimit]
  cases stands with
  | whole number =>
    rw [number]
    exact ⟨_, rfl⟩
  | @double x _ number exact =>
    have small := finite x number
    have kilo : |megabytes| * 1024 < Decimal.overflow := by
      rw [abs_of_pos positive]
      linarith
    have bytes : |megabytes * 1024| * 1024 < Decimal.overflow := by
      rw [abs_of_pos (by positivity)]
      linarith
    have value := Decimal.exactly_mul_kilo (Decimal.exactly_mul_kilo exact kilo) bytes
    obtain ⟨limit, whole⟩ := Decimal.Binary64.exists_wholePart_of_value value
    rw [number]
    simp only [whole]
    exact ⟨limit, rfl⟩

/-- Cutting the limit to whole bytes keeps out no other files than the limit itself does. -/
theorem le_byteLimit_iff (checked : s.check = .ok ()) {limit : Int} (bytes : s.byteLimit = .ok limit)
    {megabytes : Rat} (stands : (s.value .maxFileSize).StandsFor megabytes) (size : Nat) :
    (size : Int) ≤ limit ↔ (size : Rat) ≤ megabytes * 2 ^ 20 := by
  have positive := positive_of_check checked stands
  rw [byteLimit] at bytes
  cases stands with
  | whole number =>
    rw [number] at bytes
    cases bytes
    rw [bytesPerStep, ← Int.cast_le (R := Rat)]
    norm_num [mul_assoc]
  | @double x _ number exact =>
    rw [number] at bytes
    cases whole : (Decimal.Binary64.ofFloat (x * 1024.0 * 1024.0)).wholePart with
    | error cause =>
      simp only [whole] at bytes
      cases bytes
    | ok n =>
      simp only [whole] at bytes
      cases bytes
      obtain ⟨product, value⟩ := Decimal.Binary64.exists_value_of_wholePart whole
      obtain ⟨kilobytes, exactKilo, rfl⟩ := Decimal.exists_exactly_of_scaled value
      obtain ⟨q', exact', rfl⟩ := Decimal.exists_exactly_of_scaled exactKilo
      obtain rfl := exact.unique exact'
      have grown : megabytes * 1024 * 1024 = megabytes * 2 ^ 20 := by
        rw [mul_assoc]
        norm_num
      rw [Decimal.Binary64.le_wholePart_iff value (by positivity) whole, grown]

end Settings

end ScopeComplexity
