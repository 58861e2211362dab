import Mathlib.Data.List.DropRight
import ScopeComplexity.Decimal.Fixed
import ScopeComplexity.Proofs.Decimal.Whole

namespace ScopeComplexity.Decimal

def beforePoint (text : List Char) : List Char := text.takeWhile (· != '.')

def behindPoint (text : List Char) : List Char := (text.dropWhile (· != '.')).tail

def unsigned? (text : List Char) : Option Rat :=
  let whole := beforePoint text
  let fraction := behindPoint text
  if whole ≠ [] ∧ ∀ c ∈ whole ++ fraction, c.isDigit = true then
    some (Nat.ofDigitChars 10 (whole ++ fraction) 0 / 10 ^ fraction.length)
  else none

/-- The exact number that a text denotes, if it denotes one. -/
def denoted? (text : List Char) : Option Rat :=
  if text.head? = some '-' then (unsigned? text.tail).map (-·) else unsigned? text

def fractionText (fraction : List Char) : List Char := if fraction = [] then [] else '.' :: fraction

section Point

variable {front fraction : List Char} (plain : ∀ c ∈ front, c ≠ '.')
include plain

theorem beforePoint_append (fraction : List Char) : beforePoint (front ++ fractionText fraction) = front := by
  rw [beforePoint, List.takeWhile_append_of_pos fun c member => bne_iff_ne.2 (plain c member), fractionText]
  split
  · rw [List.takeWhile_nil, List.append_nil]
  · rw [List.takeWhile_cons_of_neg (by simp), List.append_nil]

theorem behindPoint_append (fraction : List Char) : behindPoint (front ++ fractionText fraction) = fraction := by
  rw [behindPoint, List.dropWhile_append_of_pos fun c member => bne_iff_ne.2 (plain c member), fractionText]
  split
  next none => rw [none, List.dropWhile_nil, List.tail_nil]
  next => rw [List.dropWhile_cons_of_neg (by simp), List.tail_cons]

end Point

/-- A number written out: a sign, digits before the point, and digits behind it. -/
structure Numeral where
  negative : Bool
  whole : List Char
  fraction : List Char
  whole_ne_nil : whole ≠ []
  whole_digits : ∀ c ∈ whole, c.isDigit = true
  fraction_digits : ∀ c ∈ fraction, c.isDigit = true

theorem ne_of_isDigit {c d : Char} (digit : c.isDigit = true) (other : d.isDigit = false) : c ≠ d := by
  rintro rfl
  cases digit.symm.trans other

namespace Numeral

variable (d e : Numeral)

def front : List Char := if d.negative then '-' :: d.whole else d.whole

def text : List Char := d.front ++ fractionText d.fraction

def size : Rat := Nat.ofDigitChars 10 (d.whole ++ d.fraction) 0 / 10 ^ d.fraction.length

def value : Rat := if d.negative then -d.size else d.size

theorem whole_ne_point : ∀ c ∈ d.whole, c ≠ '.' := fun c member => ne_of_isDigit (d.whole_digits c member) rfl

theorem front_ne_point : ∀ c ∈ d.front, c ≠ '.' := by
  rw [front]
  split
  · exact List.forall_mem_cons.2 ⟨by decide, d.whole_ne_point⟩
  · exact d.whole_ne_point

theorem beforePoint_text : beforePoint d.text = d.front := beforePoint_append d.front_ne_point _

theorem behindPoint_text : behindPoint d.text = d.fraction := behindPoint_append d.front_ne_point _

theorem unsigned?_text : unsigned? (d.whole ++ fractionText d.fraction) = some d.size := by
  rw [unsigned?, beforePoint_append d.whole_ne_point, behindPoint_append d.whole_ne_point,
    if_pos ⟨d.whole_ne_nil, List.forall_mem_append.2 ⟨d.whole_digits, d.fraction_digits⟩⟩, size]

theorem denoted?_text : denoted? d.text = some d.value := by
  have unsigned := d.unsigned?_text
  rw [denoted?, text, front, value]
  split
  next => rw [List.cons_append, if_pos List.head?_cons, List.tail_cons, unsigned, Option.map_some]
  next =>
    obtain ⟨c, rest, whole⟩ := List.exists_cons_of_ne_nil d.whole_ne_nil
    have digit : c ≠ '-' := ne_of_isDigit (d.whole_digits c (whole ▸ List.mem_cons_self)) rfl
    have noSign : (d.whole ++ fractionText d.fraction).head? ≠ some '-' := by simpa [whole] using digit
    rw [if_neg noSign, unsigned]

theorem getLast?_text : d.text.getLast? = (d.whole ++ d.fraction).getLast? := by
  have whole : d.front.getLast? = d.whole.getLast? := by
    obtain ⟨c, rest, whole⟩ := List.exists_cons_of_ne_nil d.whole_ne_nil
    rw [front, whole]
    split
    · rfl
    · rfl
  rw [text, fractionText, List.getLast?_append, List.getLast?_append, whole]
  split
  next none => rw [none]
  next some =>
    obtain ⟨c, rest, fraction⟩ := List.exists_cons_of_ne_nil some
    rw [fraction]
    rfl

theorem isDigit_of_getLast? {c : Char} (last : d.text.getLast? = some c) : c.isDigit = true := by
  rw [getLast?_text] at last
  exact List.forall_mem_append.2 ⟨d.whole_digits, d.fraction_digits⟩ c (List.mem_of_getLast? last)

theorem rdropWhile_append_cons {p : Char → Bool} (front : List Char) {c : Char} (kept : ¬p c = true)
    (text : List Char) : (front ++ c :: text).rdropWhile p = front ++ c :: text.rdropWhile p := by
  induction text using List.reverseRecOn with
  | nil => rw [List.rdropWhile_concat_neg _ _ _ kept, List.rdropWhile_nil]
  | append_singleton text last ih =>
    rw [← List.cons_append, ← List.append_assoc, List.rdropWhile_concat, List.rdropWhile_concat, ih]
    split
    · rfl
    · rw [List.append_assoc, List.cons_append]

def trimmed : Numeral where
  negative := d.negative
  whole := d.whole
  fraction := d.fraction.rdropWhile (· == '0')
  whole_ne_nil := d.whole_ne_nil
  whole_digits := d.whole_digits
  fraction_digits c member := d.fraction_digits c ((List.rdropWhile_prefix _ _).subset member)

theorem front_trimmed : d.trimmed.front = d.front := rfl

theorem exists_zeros : ∃ zeros, d.fraction = d.trimmed.fraction ++ List.replicate zeros '0' := by
  have parts : d.trimmed.fraction ++ d.fraction.rtakeWhile (· == '0') = d.fraction :=
    List.rdropWhile_append_rtakeWhile
  have zeros : ∀ c ∈ d.fraction.rtakeWhile (· == '0'), c = '0' := fun c member =>
    beq_iff_eq.1 (List.mem_rtakeWhile_imp (p := (· == '0')) member)
  rw [List.eq_replicate_of_mem zeros] at parts
  exact ⟨_, parts.symm⟩

theorem size_trimmed : d.trimmed.size = d.size := by
  obtain ⟨zeros, fraction⟩ := d.exists_zeros
  have digits : Nat.ofDigitChars 10 (d.whole ++ d.fraction) 0
      = 10 ^ zeros * Nat.ofDigitChars 10 (d.whole ++ d.trimmed.fraction) 0 := by
    rw [fraction, ← List.append_assoc, Nat.ofDigitChars_append, Nat.ofDigitChars_replicate_zero]
  have places : d.fraction.length = zeros + d.trimmed.fraction.length := by
    conv_lhs => rw [fraction, List.length_append, List.length_replicate, Nat.add_comm]
  have power : (10 : Rat) ^ zeros ≠ 0 := by positivity
  rw [size, size, digits, places, pow_add, Nat.cast_mul, Nat.cast_pow]
  exact (mul_div_mul_left _ _ power).symm

theorem value_trimmed : d.trimmed.value = d.value := by
  rw [value, value, size_trimmed]
  rfl

theorem dropTrailing_text : dropTrailing '.' d.text = d.text := by
  refine List.rdropWhile_eq_self_iff.2 fun some => ?_
  have digit := d.isDigit_of_getLast? (List.getLast?_eq_some_getLast some)
  simpa using ne_of_isDigit digit rfl

theorem trimFraction_text (fraction : d.fraction ≠ []) :
    trimFraction (String.ofList d.text) = String.ofList d.trimmed.text := by
  have zeros : dropTrailing '0' d.text = d.front ++ '.' :: d.trimmed.fraction := by
    rw [text, fractionText, if_neg fraction]
    exact rdropWhile_append_cons _ (by decide) _
  have point := d.trimmed.dropTrailing_text
  rw [trimFraction, String.toList_ofList, zeros]
  congr 1
  rw [text, fractionText, front_trimmed] at point ⊢
  split at point
  next none =>
    rw [none, if_pos rfl]
    rw [List.append_nil] at point ⊢
    rw [dropTrailing, ← List.rdropWhile, List.rdropWhile_concat_pos _ _ _ (by rfl)]
    exact point
  next some => rwa [if_neg some]

theorem text_eq_of_trimmed (places : d.fraction.length = e.fraction.length) (same : d.trimmed.text = e.trimmed.text) :
    d.text = e.text := by
  have front : d.front = e.front := by
    rw [← front_trimmed, ← beforePoint_text, same, beforePoint_text, front_trimmed]
  have kept : d.trimmed.fraction = e.trimmed.fraction := by
    rw [← behindPoint_text, same, behindPoint_text]
  obtain ⟨zeros, fraction⟩ := d.exists_zeros
  obtain ⟨zeros', fraction'⟩ := e.exists_zeros
  have count : zeros = zeros' := by
    rw [fraction, fraction', kept] at places
    simpa using places
  rw [text, text, front, fraction, fraction', kept, count]

theorem getLast?_trimmed (point : '.' ∈ d.trimmed.text) : d.trimmed.text.getLast? ≠ some '0' := by
  have some : d.trimmed.fraction ≠ [] := by
    intro none
    rw [text, none, fractionText, if_pos rfl, List.append_nil] at point
    exact d.trimmed.front_ne_point _ point rfl
  rw [getLast?_text, List.getLast?_append, List.getLast?_eq_some_getLast some, Option.some_or]
  intro zero
  exact List.rdropWhile_last_not _ _ some (beq_iff_eq.2 (Option.some.inj zero))

theorem not_mem_text {c : Char} (letter : c.isDigit = false) (sign : c ≠ '-') (point : c ≠ '.') : c ∉ d.text := by
  have digits : c ∉ d.whole ∧ c ∉ d.fraction :=
    ⟨fun member => ne_of_isDigit (d.whole_digits c member) letter rfl,
      fun member => ne_of_isDigit (d.fraction_digits c member) letter rfl⟩
  rw [text, front, fractionText]
  split <;> split <;> simp [digits, sign, point]

end Numeral

def paddedDigits (places n : Nat) : List Char :=
  List.replicate (places + 1 - (Nat.toDigits 10 n).length) '0' ++ Nat.toDigits 10 n

section Padded

variable (places n : Nat)

theorem lt_length_paddedDigits : places < (paddedDigits places n).length := by
  rw [paddedDigits, List.length_append, List.length_replicate]
  omega

theorem isDigit_of_mem_paddedDigits : ∀ c ∈ paddedDigits places n, c.isDigit = true := by
  refine List.forall_mem_append.2 ⟨fun c member => ?_, fun c member => ?_⟩
  · rw [List.eq_of_mem_replicate member]
    rfl
  · exact Nat.isDigit_of_mem_toDigits (by decide) (by decide) member

theorem ofDigitChars_paddedDigits : Nat.ofDigitChars 10 (paddedDigits places n) 0 = n := by
  rw [paddedDigits, Nat.ofDigitChars_append, Nat.ofDigitChars_replicate_zero, Nat.mul_zero,
    Nat.ofDigitChars_ten_toDigits]

def Numeral.ofPlaces (negative : Bool) : Numeral where
  negative
  whole := (paddedDigits places n).take ((paddedDigits places n).length - places)
  fraction := (paddedDigits places n).drop ((paddedDigits places n).length - places)
  whole_ne_nil := by
    have := lt_length_paddedDigits places n
    rw [Ne, List.take_eq_nil_iff, not_or]
    exact ⟨by omega, fun none => by simp [none] at this⟩
  whole_digits _ member := isDigit_of_mem_paddedDigits places n _ (List.mem_of_mem_take member)
  fraction_digits _ member := isDigit_of_mem_paddedDigits places n _ (List.mem_of_mem_drop member)

theorem length_fraction_ofPlaces (negative : Bool) : (Numeral.ofPlaces places n negative).fraction.length = places := by
  have := lt_length_paddedDigits places n
  rw [Numeral.ofPlaces, List.length_drop]
  omega

theorem pointed_eq : pointed places n = String.ofList
    ((paddedDigits places n).take ((paddedDigits places n).length - places)
      ++ '.' :: (paddedDigits places n).drop ((paddedDigits places n).length - places)) := by
  rw [pointed, Nat.toString_eq_ofList_toDigits, String.toList_ofList]
  rw [List.append_cons, String.ofList_append, String.ofList_append]
  rfl

theorem text_ofPlaces (positive : 0 < places) (negative : Bool) :
    String.ofList (Numeral.ofPlaces places n negative).text
      = if negative then "-" ++ pointed places n else pointed places n := by
  have some : (Numeral.ofPlaces places n negative).fraction ≠ [] := by
    rw [← List.length_pos_iff_ne_nil, length_fraction_ofPlaces]
    exact positive
  rw [pointed_eq, Numeral.text, fractionText, if_neg some, Numeral.front]
  cases negative with
  | false => rfl
  | true =>
    have sign : "-" = String.ofList ['-'] := rfl
    rw [if_pos rfl, sign, ← String.ofList_append]
    rfl

theorem size_ofPlaces (negative : Bool) : (Numeral.ofPlaces places n negative).size = n / 10 ^ places := by
  rw [Numeral.size, length_fraction_ofPlaces]
  rw [Numeral.ofPlaces, List.take_append_drop, ofDigitChars_paddedDigits]

theorem value_ofPlaces (negative : Bool) :
    (Numeral.ofPlaces places n negative).value = (if negative then -1 else 1) * (n / 10 ^ places) := by
  rw [Numeral.value, size_ofPlaces]
  cases negative with
  | false => exact (one_mul _).symm
  | true => exact (neg_one_mul _).symm

end Padded

theorem abs_roundDiv_sub_le (num : Nat) {den : Nat} (positive : 0 < den) :
    |(roundDiv num den : Rat) - num / den| ≤ 1 / 2 := by
  have nonzero : (0 : Rat) < den := Nat.cast_pos.2 positive
  have whole : (num : Rat) = den * (num / den : Nat) + (num % den : Nat) := by
    exact_mod_cast (Nat.div_add_mod num den).symm
  have quotient : (num : Rat) / den = (num / den : Nat) + ((num % den : Nat) : Rat) / den := by
    rw [div_eq_iff nonzero.ne', add_mul, div_mul_cancel₀ _ nonzero.ne', mul_comm]
    exact whole
  have least : 0 ≤ ((num % den : Nat) : Rat) / den := by positivity
  have less : ((num % den : Nat) : Rat) / den < 1 := by
    rw [div_lt_one nonzero]
    exact_mod_cast Nat.mod_lt num positive
  rw [quotient, roundDiv, abs_le]
  split
  next smaller =>
    have half : ((num % den : Nat) : Rat) / den ≤ 1 / 2 := by
      rw [div_le_div_iff₀ nonzero two_pos]
      exact_mod_cast (by omega : num % den * 2 ≤ 1 * den)
    constructor <;> linarith
  next =>
    split
    next greater =>
      have half : 1 / 2 ≤ ((num % den : Nat) : Rat) / den := by
        rw [div_le_div_iff₀ two_pos nonzero]
        exact_mod_cast (by omega : 1 * den ≤ num % den * 2)
      push_cast
      constructor <;> linarith
    next =>
      have half : ((num % den : Nat) : Rat) / den = 1 / 2 := by
        rw [div_eq_div_iff nonzero.ne' two_ne_zero]
        exact_mod_cast (by omega : num % den * 2 = 1 * den)
      rcases Nat.mod_two_eq_zero_or_one (num / den) with even | odd
      · rw [even]
        push_cast
        constructor <;> linarith
      · rw [odd]
        push_cast
        constructor <;> linarith

theorem cast_twoTo (k : Nat) : (twoTo k : Rat) = 2 ^ k := by
  rw [twoTo, Nat.pow_eq, Nat.cast_pow, Nat.cast_ofNat]

theorem scaled_div (num den : Nat) (power : Int) :
    ((Binary64.scaled num den power).1 : Rat) / (Binary64.scaled num den power).2 = num / den * 2 ^ power := by
  rw [Binary64.scaled]
  split
  next negative =>
    have natural : power = -(power.natAbs : Int) := by omega
    rw [Nat.cast_mul, cast_twoTo, natural, zpow_neg, zpow_natCast, Int.natAbs_neg, Int.natAbs_natCast, div_mul_eq_div_div,
      div_eq_mul_inv (_ / _)]
  next =>
    have natural : power = (power.natAbs : Int) := by omega
    rw [Nat.cast_mul, cast_twoTo, natural, zpow_natCast, Int.natAbs_natCast, mul_div_right_comm]

theorem scaled_den_pos (num : Nat) {den : Nat} (positive : 0 < den) (power : Int) :
    0 < (Binary64.scaled num den power).2 := by
  rw [Binary64.scaled]
  split
  · exact Nat.mul_pos positive (Nat.two_pow_pos _)
  · exact positive

theorem abs_value_sub_le (places mantissa : Nat) (exponent : Int) (negative : Bool) :
    |(Numeral.ofPlaces places (roundDiv (Binary64.scaled (mantissa * tenTo places) 1 exponent).1
        (Binary64.scaled (mantissa * tenTo places) 1 exponent).2) negative).value
      - (if negative then -1 else 1) * mantissa * 2 ^ exponent| ≤ 1 / 2 / 10 ^ places := by
  have power : (0 : Rat) < 10 ^ places := by positivity
  have near := abs_roundDiv_sub_le (Binary64.scaled (mantissa * tenTo places) 1 exponent).1
    (scaled_den_pos (mantissa * tenTo places) one_pos exponent)
  rw [scaled_div, tenTo, Nat.pow_eq] at near
  have sign : |if negative then (-1 : Rat) else 1| = 1 := by cases negative <;> simp
  rw [value_ofPlaces, le_div_iff₀ power, ← abs_of_pos power, ← abs_mul, abs_of_pos power, tenTo, Nat.pow_eq]
  generalize (roundDiv _ _ : Rat) = rounded at near ⊢
  calc |((if negative then -1 else 1) * (rounded / 10 ^ places)
        - (if negative then -1 else 1) * mantissa * 2 ^ exponent) * 10 ^ places|
      = |(if negative then -1 else 1) * (rounded - (mantissa * 10 ^ places : Nat) / (1 : Nat) * 2 ^ exponent)| := by
        congr 1
        push_cast
        field_simp
    _ = |rounded - (mantissa * 10 ^ places : Nat) / (1 : Nat) * 2 ^ exponent| := by rw [abs_mul, sign, one_mul]
    _ ≤ 1 / 2 := near

theorem exists_numeral_of_fixed {x : Float} {q : Rat} (h : Exactly q x) {places : Nat} (positive : 0 < places) :
    ∃ d : Numeral, fixed places x = String.ofList d.text ∧ d.fraction.length = places ∧
      |d.value - q| ≤ 1 / 2 / 10 ^ places := by
  rw [Exactly] at h
  rw [fixed]
  cases parts : Binary64.ofFloat x with
  | notANumber => rw [parts] at h; cases h
  | infinite negative => rw [parts] at h; cases h
  | finite negative mantissa exponent =>
    rw [parts] at h
    cases h
    exact ⟨_, (text_ofPlaces places _ positive negative).symm, length_fraction_ofPlaces _ _ _,
      abs_value_sub_le places mantissa exponent negative⟩

theorem fixed_of_value?_none {x : Float} (h : (Binary64.ofFloat x).value? = none) (places : Nat) :
    fixed places x ∈ ["inf", "-inf", "nan"] := by
  rw [fixed]
  cases parts : Binary64.ofFloat x with
  | notANumber => simp
  | infinite negative => cases negative <;> simp
  | finite negative mantissa exponent =>
    rw [parts] at h
    cases h

structure Abridges (long short : List Char) : Prop where
  denoted : ∃ number, denoted? long = some number ∧ denoted? short = some number
  noPoint : short.getLast? ≠ some '.'
  noZero : '.' ∈ short → short.getLast? ≠ some '0'
  whole : beforePoint short = beforePoint long

theorem Numeral.abridges_trimmed (d : Numeral) : Abridges d.text d.trimmed.text where
  denoted := ⟨d.value, d.denoted?_text, by rw [denoted?_text, value_trimmed]⟩
  noPoint last := by cases d.trimmed.isDigit_of_getLast? last
  noZero := d.getLast?_trimmed
  whole := by rw [beforePoint_text, beforePoint_text, front_trimmed]

theorem brief_of_numeral {x : Float} {d : Numeral} (text : fixed 2 x = String.ofList d.text)
    (places : d.fraction.length = 2) : brief x = String.ofList d.trimmed.text := by
  have some : d.fraction ≠ [] := List.length_pos_iff.1 (places ▸ two_pos)
  rw [brief, text, d.trimFraction_text some]

theorem brief_of_value?_none {x : Float} (h : (Binary64.ofFloat x).value? = none) : brief x = fixed 2 x := by
  have words : ∀ word ∈ ["inf", "-inf", "nan"], trimFraction word = word := by decide
  exact words _ (fixed_of_value?_none h 2)

theorem fixed_ne_trimmed {x : Float} (h : (Binary64.ofFloat x).value? = none) (d : Numeral) :
    fixed 2 x ≠ String.ofList d.trimmed.text := by
  have letter : ∀ word ∈ ["inf", "-inf", "nan"], 'n' ∈ word.toList := by decide
  intro same
  have member := letter _ (fixed_of_value?_none h 2)
  rw [same, String.toList_ofList] at member
  exact d.trimmed.not_mem_text (by decide) (by decide) (by decide) member

theorem fixed_eq_of_brief_eq {x y : Float} (same : brief x = brief y) : fixed 2 x = fixed 2 y := by
  cases valueX : (Binary64.ofFloat x).value? with
  | none =>
    rw [brief_of_value?_none valueX] at same
    cases valueY : (Binary64.ofFloat y).value? with
    | none => rw [same, brief_of_value?_none valueY]
    | some r =>
      obtain ⟨e, textY, placesY, -⟩ := exists_numeral_of_fixed valueY two_pos
      rw [brief_of_numeral textY placesY] at same
      exact absurd same (fixed_ne_trimmed valueX e)
  | some q =>
    obtain ⟨d, textX, placesX, -⟩ := exists_numeral_of_fixed valueX two_pos
    rw [brief_of_numeral textX placesX] at same
    cases valueY : (Binary64.ofFloat y).value? with
    | none =>
      rw [brief_of_value?_none valueY] at same
      exact absurd same.symm (fixed_ne_trimmed valueY d)
    | some r =>
      obtain ⟨e, textY, placesY, -⟩ := exists_numeral_of_fixed valueY two_pos
      rw [brief_of_numeral textY placesY, String.ofList_inj] at same
      rw [textX, textY, d.text_eq_of_trimmed e (placesX.trans placesY.symm) same]

/-- The short text of a double denotes what its text with two places does, the nearest hundredth, and loses no digit
before the point. It tells of a double what the text with two places tells, and what is no number has the same word. -/
theorem brief_abridges_fixed :
    (∀ x q, Exactly q x → Abridges (fixed 2 x).toList (brief x).toList ∧
      ∃ number, denoted? (fixed 2 x).toList = some number ∧ |number - q| ≤ 1 / 200) ∧
    (∀ x y, brief x = brief y ↔ fixed 2 x = fixed 2 y) ∧
    ∀ x, (Binary64.ofFloat x).value? = none → brief x = fixed 2 x ∧ fixed 2 x ∈ ["inf", "-inf", "nan"] := by
  refine ⟨fun x q exactly => ?finite, fun x y => ⟨fixed_eq_of_brief_eq, fun same => by rw [brief, same, brief]⟩,
    fun x none => ⟨brief_of_value?_none none, fixed_of_value?_none none 2⟩⟩
  case finite =>
    obtain ⟨d, text, places, near⟩ := exists_numeral_of_fixed exactly two_pos
    rw [brief_of_numeral text places, text, String.toList_ofList, String.toList_ofList]
    refine ⟨d.abridges_trimmed, d.value, d.denoted?_text, near.trans (by norm_num)⟩

theorem brief_abridges_fixed_of_hundred :
    Abridges (fixed 2 (whole 100)).toList (brief (whole 100)).toList ∧ brief (whole 100) = "100" ∧
      brief (1.0 / 0.0) = fixed 2 (1.0 / 0.0) := by
  have finite := brief_abridges_fixed.1 (whole 100) (100 : Nat) (exactly_whole (by norm_num))
  have infinite := brief_abridges_fixed.2.2 (1.0 / 0.0) (by decide)
  exact ⟨finite.1, by decide, infinite.1⟩

example : brief 2.25 = "2.25" ∧ brief 2.5 = "2.5" := by decide

end ScopeComplexity.Decimal
