import ScopeComplexity.Proofs.Decimal.Whole

namespace ScopeComplexity.Decimal

open Float.Model (Format UnpackedFloat totalExponent)
open Float.Model.UnpackedFloat hiding ofNat ofInt pack unpack add normalize round

def unpackedValue? : UnpackedFloat → Option Rat
  | .finite sign mantissa exponent _ => some (sign.apply mantissa * 2 ^ exponent)
  | .zero _ => some 0
  | .infinity _ => none
  | .notANumber => none

/-- The mantissa and the exponent of a double: there are 53 bits in the mantissa, or fewer at the
least exponent. -/
structure Canonical (mantissa : Nat) (exponent : Int) : Prop where
  fits : mantissa < 2 ^ 53
  full : 2 ^ 52 ≤ mantissa ∨ exponent = Binary64.leastExponent
  least : Binary64.leastExponent ≤ exponent

section Word

variable (b : BitVec Format.binary64.numBits)

theorem toNat_unpackMantissa : (unpackMantissa b).toNat = b.toNat % 2 ^ 52 := by
  rw [unpackMantissa, BitVec.toNat_cast, BitVec.extractLsb_toNat]
  simp

theorem toNat_unpackExponent : (unpackExponent b).toNat = b.toNat / 2 ^ 52 % 2 ^ 11 := by
  rw [unpackExponent, BitVec.toNat_cast, BitVec.extractLsb_toNat, Nat.shiftRight_eq_div_pow]
  rfl

theorem toNat_unpackSign : (unpackSign b).toNat = b.toNat / 2 ^ 63 % 2 := by
  rw [unpackSign, BitVec.toNat_cast, BitVec.extractLsb_toNat, Nat.shiftRight_eq_div_pow]
  rfl

theorem toNat_implicit (m : BitVec 52) : (1#1 ++ m).toNat = m.toNat + 2 ^ 52 := by
  rw [BitVec.toNat_append, ← Nat.shiftLeft_add_eq_or_of_lt m.isLt, Nat.add_comm]
  rfl

theorem value?_ofBits :
    (Binary64.ofBits b.toNat).value? = unpackedValue? (UnpackedFloat.unpack Format.binary64 b) := by
  have exponent : b.toNat / twoTo 52 % twoTo 11 = (unpackExponent b).toNat :=
    (toNat_unpackExponent b).symm
  have mantissa : b.toNat % twoTo 52 = (unpackMantissa b).toNat := (toNat_unpackMantissa b).symm
  have sign : b.toNat / twoTo 63 % 2 = (unpackSign b).toNat := (toNat_unpackSign b).symm
  have signed : (if ((unpackSign b).toNat == 1) = true then (-1 : Rat) else 1)
      = (Sign.ofBitVec (unpackSign b)).apply 1 := by
    rcases (unpackSign b).eq_zero_or_eq_one with zero | one
    · rw [zero]; rfl
    · rw [one]; rfl
  have applied (m : Nat) : ((Sign.ofBitVec (unpackSign b)).apply m : Rat)
      = (Sign.ofBitVec (unpackSign b)).apply 1 * m := by
    cases Sign.ofBitVec (unpackSign b) <;> simp [Sign.apply]
  have isTop : ((unpackExponent b).toNat == Binary64.topField) = decide (unpackExponent b = -1#11) := by
    rw [Bool.eq_iff_iff, beq_iff_eq, decide_eq_true_iff, ← BitVec.toNat_inj]
    rfl
  have isZero : ((unpackExponent b).toNat == 0) = decide (unpackExponent b = 0#11) := by
    rw [Bool.eq_iff_iff, beq_iff_eq, decide_eq_true_iff, ← BitVec.toNat_inj]
    rfl
  have isNone : ((unpackMantissa b).toNat == 0) = decide (unpackMantissa b = 0#52) := by
    rw [Bool.eq_iff_iff, beq_iff_eq, decide_eq_true_iff, ← BitVec.toNat_inj]
    rfl
  have shift : ((unpackExponent b).toNat : Int) - 1 + Binary64.leastExponent
      = (unpackExponent b).toNat - (Format.binary64.exponentBias + (52 : Nat)) := by
    have bias : (Format.binary64.exponentBias : Int) = 1023 := rfl
    rw [Binary64.leastExponent, bias]
    omega
  rw [Binary64.ofBits, UnpackedFloat.unpack, exponent, mantissa, sign, isTop, isZero, isNone]
  by_cases top : unpackExponent b = -1#11
  · by_cases none : unpackMantissa b = 0#52
    · rw [decide_eq_true top, if_pos rfl, if_pos top, decide_eq_true none, if_pos rfl, if_pos none]
      rfl
    · rw [decide_eq_true top, if_pos rfl, if_pos top, decide_eq_false none, if_neg Bool.false_ne_true,
        if_neg none]
      rfl
  · rw [decide_eq_false top, if_neg Bool.false_ne_true, if_neg top]
    by_cases least : unpackExponent b = 0#11
    · rw [decide_eq_true least, if_pos rfl, if_pos least]
      by_cases none : unpackMantissa b = 0#52
      · rw [dif_pos none, Binary64.value?, none]
        simp [unpackedValue?]
      · rw [dif_neg none, Binary64.value?, signed, unpackedValue?, applied, least]
        rfl
    · rw [decide_eq_false least, if_neg Bool.false_ne_true, if_neg least, Binary64.value?, signed,
        unpackedValue?, applied, toNat_implicit, shift]
      rfl

theorem canonical_unpack {sign : Sign} {m : Nat} {e : Int} {positive : 0 < m}
    (h : UnpackedFloat.unpack Format.binary64 b = .finite sign m e positive) : Canonical m e := by
  have bias : (Format.binary64.exponentBias : Int) = 1023 := rfl
  have fits := (unpackMantissa b).isLt
  rw [UnpackedFloat.unpack] at h
  dsimp only at h
  split at h
  · split at h <;> cases h
  · split at h
    next least =>
      split at h
      · cases h
      · cases h
        have exponent : ((unpackExponent b).toNat : Int) - (Format.binary64.exponentBias + (52 : Nat)) + 1
            = Binary64.leastExponent := by
          rw [least, bias]
          rfl
        exact ⟨fits.trans (by decide), .inr exponent, exponent.ge⟩
    next more =>
      cases h
      have field : 0 < (unpackExponent b).toNat := (BitVec.toNat_pos _).2 ((BitVec.pos_iff_ne_zero _).2 more)
      rw [toNat_implicit, bias]
      refine ⟨?_, .inl (Nat.le_add_left _ _), ?_⟩
      · change _ < 2 ^ 52 at fits
        omega
      · rw [Binary64.leastExponent]
        omega

end Word

section Parts

variable {sign : Sign} {m : Nat}

theorem ofBitVec_toBitVec (sign : Sign) : Sign.ofBitVec sign.toBitVec = sign := by
  cases sign <;> rfl

theorem unpack_packNormal {field : Nat} (positive : 0 < field) (finite : field < Binary64.topField)
    (low : 2 ^ 52 ≤ m) (high : m < 2 ^ 53) :
    UnpackedFloat.unpack Format.binary64
        (packComponents Format.binary64 sign (BitVec.ofNat 11 field) (BitVec.ofNat 52 m))
      = .finite sign m ((field : Int) - 1 + Binary64.leastExponent) ((Nat.two_pow_pos 52).trans_le low) := by
  have word : (BitVec.ofNat 11 field).toNat = field := by
    rw [BitVec.toNat_ofNat, Nat.mod_eq_of_lt (finite.trans (by decide))]
  have notTop : BitVec.ofNat 11 field ≠ -1#11 := by
    intro top
    exact finite.ne (word.symm.trans (congrArg BitVec.toNat top))
  have notZero : BitVec.ofNat 11 field ≠ 0#11 := by
    intro zero
    exact positive.ne' (word.symm.trans (congrArg BitVec.toNat zero))
  have mantissa : (1#1 ++ BitVec.ofNat 52 m).toNat = m := by
    rw [toNat_implicit, BitVec.toNat_ofNat]
    omega
  have exponent : (field : Int) - (Format.binary64.exponentBias + (52 : Nat))
      = field - 1 + Binary64.leastExponent := by
    have bias : (Format.binary64.exponentBias : Int) = 1023 := rfl
    rw [Binary64.leastExponent, bias]
    omega
  rw [UnpackedFloat.unpack]
  simp only [unpackMantissa_packComponents, unpackExponent_packComponents, unpackSign_packComponents,
    notTop, notZero, ↓reduceIte, word, mantissa, exponent, ofBitVec_toBitVec]

theorem unpack_packSubnormal (positive : 0 < m) (low : m < 2 ^ 52) :
    UnpackedFloat.unpack Format.binary64
        (packComponents Format.binary64 sign 0#11 (BitVec.ofNat 52 m))
      = .finite sign m Binary64.leastExponent positive := by
  have mantissa : (BitVec.ofNat 52 m).toNat = m := by
    rw [BitVec.toNat_ofNat, Nat.mod_eq_of_lt low]
  have notZero : BitVec.ofNat 52 m ≠ 0#52 := by
    intro zero
    exact positive.ne' (mantissa.symm.trans (congrArg BitVec.toNat zero))
  have notTop : (0#11 : BitVec 11) ≠ -1#11 := by decide
  rw [UnpackedFloat.unpack]
  simp only [unpackMantissa_packComponents, unpackExponent_packComponents, unpackSign_packComponents,
    notTop, notZero, ↓reduceIte, ↓reduceDIte, mantissa, ofBitVec_toBitVec]
  rfl

def tooLarge : Int := 972

theorem large_iff {e : Int} (least : Binary64.leastExponent ≤ e) :
    2 ^ Format.binary64.exponentBits ≤ (e + Format.binary64.exponentBias + (52 : Nat)).toNat + 1 ↔
      tooLarge ≤ e := by
  have bias : (Format.binary64.exponentBias : Int) = 1023 := rfl
  have bits : Format.binary64.exponentBits = 11 := rfl
  rw [Binary64.leastExponent] at least
  rw [bias, bits, tooLarge]
  omega

theorem unpackedValue?_pack_of_le {e : Int} (sign : Sign) (positive : 0 < m)
    (least : Binary64.leastExponent ≤ e) (large : tooLarge ≤ e) :
    unpackedValue? (UnpackedFloat.unpack Format.binary64
      (UnpackedFloat.pack Format.binary64 (.finite sign m e positive))) = none := by
  rw [UnpackedFloat.pack]
  dsimp only
  rw [if_pos ((large_iff least).2 large)]
  simp [packedInfinity, UnpackedFloat.unpack, unpackedValue?]

/-- What has the parts of a double is unchanged when it is put together and taken apart, unless it is
too large for that. -/
theorem unpack_pack {e : Int} (sign : Sign) (canonical : Canonical m e) (positive : 0 < m)
    (small : e < tooLarge) :
    UnpackedFloat.unpack Format.binary64 (UnpackedFloat.pack Format.binary64 (.finite sign m e positive))
      = .finite sign m e positive := by
  obtain ⟨fits, full, least⟩ := canonical
  have bias : (Format.binary64.exponentBias : Int) = 1023 := rfl
  have notLarge := mt (large_iff least).1 small.not_ge
  obtain ⟨field, field_eq⟩ : ∃ field : Nat, (e + Format.binary64.exponentBias + (52 : Nat)).toNat = field :=
    ⟨_, rfl⟩
  rw [UnpackedFloat.pack]
  dsimp only
  rw [if_neg notLarge, field_eq]
  have log2 : m.log2 = 52 ↔ 2 ^ 52 ≤ m := by
    rw [← Nat.le_log2 positive.ne']
    have := log2_le_of_lt positive fits
    omega
  split
  next normal =>
    have low : 2 ^ 52 ≤ m := log2.1 (Nat.succ.inj (normal.trans rfl))
    rw [Binary64.leastExponent] at least
    rw [unpack_packNormal (by omega) _ low fits]
    · congr 1
      rw [Binary64.leastExponent]
      omega
    · rw [tooLarge] at small
      rw [Binary64.topField]
      omega
  next subnormal =>
    have low : ¬ 2 ^ 52 ≤ m := by
      rw [← log2]
      intro bits
      exact subnormal (congrArg (· + 1) bits)
    obtain rfl := full.resolve_left low
    exact unpack_packSubnormal positive (Nat.not_le.1 low)

theorem roundWithAccuracy_scaled {e : Int} (canonical : Canonical m e) (positive : 0 < m)
    (sign : Sign) : ∃ (m' : Nat) (e' : Int) (positive' : 0 < m'), Canonical m' e' ∧
      (m' : Rat) * 2 ^ e' = m * 2 ^ e * 1024 ∧
      roundWithAccuracy Format.binary64 sign (m * 2 ^ 52) (e + -42) .exact
        = .finite sign m' e' positive' := by
  obtain ⟨fits, -, least⟩ := canonical
  have bits := log2_le_of_lt positive fits
  have log2 := log2_mul_two_pow positive
  rw [Binary64.leastExponent] at least
  -- the shift that leaves 53 bits, or reaches the least exponent
  obtain ⟨k, shift⟩ : ∃ k : Nat, (k : Int) = max (m.log2 : Int) (-1032 - e) :=
    ⟨(max (m.log2 : Int) (-1032 - e)).toNat, by omega⟩
  have enough : k ≤ 52 := by omega
  have target (j : Nat) (h : j ≤ 52) : Format.binary64.targetExponent
      (totalExponent (m * 2 ^ (52 - j)) (e + -42 + j)) = e + -42 + k := by
    simp only [Format.targetExponent, totalExponent, log2, Format.mantissaBits, Format.minExponent]
    omega
  have shifted (j : Nat) (h : j ≤ k) :
      shiftToTargetExponent Format.binary64 (m * 2 ^ (52 - j)) (e + -42 + j) .exact
        = (⟨m * 2 ^ (52 - k), false, false⟩, e + -42 + k) := by
    have amount : (e + -42 + k - (e + -42 + j)).toNat = k - j := by omega
    have split : m * 2 ^ (52 - j) = m * 2 ^ (52 - k) * 2 ^ (k - j) := by
      rw [Nat.mul_assoc, ← Nat.pow_add]
      congr 2
      omega
    rw [shiftToTargetExponent, target j (h.trans enough), shiftToExponent, amount, split,
      ExtendedMantissa.ofMantissaAndAccuracy, shiftRight_mul_two_pow]
    congr 1
    omega
  have first := shifted 0 (Nat.zero_le k)
  rw [Nat.cast_zero, add_zero, Nat.sub_zero] at first
  have positive' : 0 < m * 2 ^ (52 - k) := Nat.mul_pos positive (Nat.two_pow_pos _)
  have log2' : (m * 2 ^ (52 - k)).log2 = m.log2 + (52 - k) := log2 _
  refine ⟨m * 2 ^ (52 - k), e + -42 + k, positive', ⟨?_, ?_, ?_⟩, ?_, ?_⟩
  · rw [← Nat.log2_lt positive'.ne', log2']
    omega
  · rw [← Nat.le_log2 positive'.ne', log2', Binary64.leastExponent]
    omega
  · rw [Binary64.leastExponent]
    omega
  · have exponents : ((52 - k : Nat) : Int) + (e + -42 + k) = e + 10 := by omega
    rw [Nat.cast_mul, Nat.cast_pow, ← zpow_natCast, mul_assoc, mul_assoc, Nat.cast_ofNat,
      ← zpow_add₀ two_ne_zero, exponents, zpow_add₀ two_ne_zero]
    norm_num
  · rw [roundWithAccuracy, first]
    simp only [ExtendedMantissa.roundedMantissa, ExtendedMantissa.accuracy, Accuracy.roundToNearestEven,
      shifted k le_rfl, positive'.ne', ↓reduceDIte]

end Parts

theorem value?_ofFloat (x : Float) :
    (Binary64.ofFloat x).value? = unpackedValue? x.toModel.unpack := value?_ofBits x.toModel.toBits.toBitVec

theorem unpack_kilo :
    (1024.0 : Float).toModel.unpack = .finite .positive (2 ^ 52) (-42) (Nat.two_pow_pos 52) := by
  have kilo : (1024.0 : Float) = whole 1024 := by decide
  rw [kilo]
  exact (unpack_pack_ofNat (by decide)).trans (ofNat_eq (by decide) (by decide))

theorem exactly_iff {x : Float} {q : Rat} : Exactly q x ↔ unpackedValue? x.toModel.unpack = some q := by
  rw [Exactly, value?_ofFloat]

theorem unpack_mul_kilo (x : Float) : (x * 1024.0).toModel.unpack =
    UnpackedFloat.unpack Format.binary64 (UnpackedFloat.pack Format.binary64
      (UnpackedFloat.mul Format.binary64 x.toModel.unpack
        (.finite .positive (2 ^ 52) (-42) (Nat.two_pow_pos 52)))) := by
  rw [← unpack_kilo]
  rfl

theorem exists_exactly_of_scaled {x : Float} {r : Rat} (h : Exactly r (x * 1024.0)) :
    ∃ q, Exactly q x ∧ r = q * 1024 := by
  rw [exactly_iff, unpack_mul_kilo] at h
  simp only [exactly_iff]
  cases parts : x.toModel.unpack with
  | notANumber =>
    rw [parts] at h
    cases h
  | infinity sign =>
    rw [parts] at h
    cases sign <;> cases h
  | zero sign =>
    rw [parts] at h
    refine ⟨0, rfl, ?_⟩
    cases sign <;> cases h <;> simp
  | finite sign m e positive =>
    obtain ⟨m', e', positive', canonical, value, rounded⟩ :=
      roundWithAccuracy_scaled (canonical_unpack _ parts) positive sign
    have same : sign * .positive = sign := by cases sign <;> rfl
    rw [parts, UnpackedFloat.mul, same, rounded] at h
    refine ⟨_, rfl, ?_⟩
    by_cases small : e' < tooLarge
    · rw [unpack_pack sign canonical positive' small] at h
      cases h
      cases sign <;> simp [Sign.apply, value]
    · rw [unpackedValue?_pack_of_le sign positive' canonical.least (not_lt.1 small)] at h
      cases h

def overflow : Rat := 2 ^ (tooLarge + 52)

theorem overflow_le {m : Nat} {e : Int} (canonical : Canonical m e) (large : tooLarge ≤ e) :
    overflow ≤ m * 2 ^ e := by
  have full : 2 ^ 52 ≤ m := by
    apply canonical.full.resolve_right
    rintro rfl
    exact absurd large (by decide)
  have bits : ((2 ^ 52 : Nat) : Rat) = 2 ^ (52 : Int) := by norm_num
  calc
    overflow = ((2 ^ 52 : Nat) : Rat) * 2 ^ tooLarge := by
      rw [overflow, add_comm, zpow_add₀ two_ne_zero, bits]
    _ ≤ m * 2 ^ e := by
      gcongr
      · norm_num

theorem exactly_mul_kilo {x : Float} {q : Rat} (h : Exactly q x) (small : |q| * 1024 < overflow) :
    Exactly (q * 1024) (x * 1024.0) := by
  rw [exactly_iff] at h
  rw [exactly_iff, unpack_mul_kilo]
  cases parts : x.toModel.unpack with
  | notANumber =>
    rw [parts] at h
    cases h
  | infinity sign =>
    rw [parts] at h
    cases h
  | zero sign =>
    rw [parts] at h
    cases h
    cases sign <;> simp <;> rfl
  | finite sign m e positive =>
    obtain ⟨m', e', positive', canonical, value, rounded⟩ :=
      roundWithAccuracy_scaled (canonical_unpack _ parts) positive sign
    have same : sign * .positive = sign := by cases sign <;> rfl
    rw [parts] at h
    cases h
    have size : |((sign.apply m : Int) : Rat) * 2 ^ e| = m * 2 ^ e := by
      rw [abs_mul, abs_of_pos (by positivity : (0 : Rat) < 2 ^ e)]
      cases sign <;> simp [Sign.apply]
    rw [size, ← value] at small
    have fits : e' < tooLarge := by
      by_contra large
      exact absurd small (overflow_le canonical (not_lt.1 large)).not_gt
    rw [UnpackedFloat.mul, same, rounded, unpack_pack sign canonical positive' fits]
    cases sign <;> simp [unpackedValue?, Sign.apply, value]

theorem Exactly.unique {x : Float} {q r : Rat} (h : Exactly q x) (h' : Exactly r x) : q = r :=
  Option.some.inj (h.symm.trans h')

theorem Exactly.pos {x : Float} {q : Rat} (h : Exactly q x) (more : ¬ x ≤ whole 0) : 0 < q := by
  have zero : (whole 0).toModel.unpack = .zero .positive := rfl
  have more : (x.toModel.unpack.compare (whole 0).toModel.unpack).any (·.isLE) = false :=
    Bool.eq_false_iff.2 fun le => more (decide_eq_true (p := x.toModel ≤ (whole 0).toModel) le)
  rw [exactly_iff] at h
  rw [zero] at more
  cases parts : x.toModel.unpack with
  | notANumber =>
    rw [parts] at h
    cases h
  | infinity sign =>
    rw [parts] at h
    cases h
  | zero sign =>
    rw [parts] at more
    cases more
  | finite sign m e positive =>
    rw [parts] at h more
    cases sign with
    | negative => cases more
    | positive =>
      cases h
      have : (0 : Rat) < m := Nat.cast_pos.2 positive
      simp only [Sign.apply]
      positivity

theorem lt_one_of_le_zero {x : Float} (h : x ≤ whole 0) : x < whole 1 := by
  have zero : (whole 0).toModel.unpack = .zero .positive := rfl
  have one : (whole 1).toModel.unpack = .finite .positive (2 ^ 52) (-52) (by decide) := by rfl
  have le : (x.toModel.unpack.compare (whole 0).toModel.unpack).any (·.isLE) = true :=
    of_decide_eq_true (p := x.toModel ≤ (whole 0).toModel) h
  refine decide_eq_true (p := x.toModel < (whole 1).toModel) ?_
  change (x.toModel.unpack.compare (whole 1).toModel.unpack == some .lt) = true
  rw [zero] at le
  rw [one]
  cases parts : x.toModel.unpack with
  | notANumber =>
    rw [parts] at le
    cases le
  | infinity sign =>
    rw [parts] at le
    cases sign with
    | positive => cases le
    | negative => rfl
  | zero sign => rfl
  | finite sign m e positive =>
    rw [parts] at le
    cases sign with
    | positive => cases le
    | negative => rfl

theorem zero_lt_of_one_le {x : Float} (number : x.isNaN = false) (h : ¬x < whole 1) : whole 0 < x := by
  have zero : (whole 0).toModel.unpack = .zero .positive := rfl
  have one : (whole 1).toModel.unpack = .finite .positive (2 ^ 52) (-52) (by decide) := by rfl
  refine decide_eq_true (p := (whole 0).toModel < x.toModel) ?_
  change ((whole 0).toModel.unpack.compare x.toModel.unpack == some .lt) = true
  have notLess : (x.toModel.unpack.compare (whole 1).toModel.unpack == some .lt) = false :=
    Bool.eq_false_iff.2 fun less => h (decide_eq_true (p := x.toModel < (whole 1).toModel) less)
  have known : x.toModel.unpack.isNaN = false := number
  rw [one] at notLess
  rw [zero]
  cases parts : x.toModel.unpack with
  | notANumber =>
    rw [parts] at known
    cases known
  | infinity sign =>
    rw [parts] at notLess
    cases sign with
    | positive => rfl
    | negative => cases notLess
  | zero sign =>
    rw [parts] at notLess
    cases notLess
  | finite sign m e positive =>
    rw [parts] at notLess
    cases sign with
    | positive => rfl
    | negative => cases notLess

section NotANumber

variable {x : Float} (none : x.isNaN = true) (y : Float)

include none

theorem unpack_of_isNaN : x.toModel.unpack = .notANumber := by
  have known : x.toModel.unpack.isNaN = true := none
  cases parts : x.toModel.unpack with
  | notANumber => rfl
  | _ =>
    rw [parts] at known
    cases known

theorem not_le_of_isNaN : ¬x ≤ y := by
  intro le
  have le : (x.toModel.unpack.compare y.toModel.unpack).any (·.isLE) = true :=
    of_decide_eq_true (p := x.toModel ≤ y.toModel) le
  rw [unpack_of_isNaN none] at le
  cases le

theorem not_lt_of_isNaN : ¬y < x := by
  intro lt
  have lt : (y.toModel.unpack.compare x.toModel.unpack == some .lt) = true :=
    of_decide_eq_true (p := y.toModel < x.toModel) lt
  rw [unpack_of_isNaN none] at lt
  cases parts : y.toModel.unpack <;> rw [parts] at lt <;> cases lt

theorem beq_of_isNaN : (x == y) = false := by
  change (x.toModel.unpack.compare y.toModel.unpack == some .eq) = false
  rw [unpack_of_isNaN none]
  rfl

end NotANumber

namespace Binary64

theorem exists_value_of_wholePart {b : Binary64} {n : Int} (h : b.wholePart = .ok n) :
    ∃ q, b.value? = some q := by
  cases b with
  | notANumber => cases h
  | infinite negative => cases h
  | finite negative mantissa exponent => exact ⟨_, rfl⟩

theorem exists_wholePart_of_value {b : Binary64} {q : Rat} (value : b.value? = some q) :
    ∃ n, b.wholePart = .ok n := by
  cases b with
  | notANumber => cases value
  | infinite negative => cases value
  | finite negative mantissa exponent => exact ⟨_, rfl⟩

theorem le_wholePart_iff {b : Binary64} {q : Rat} {n : Int} (value : b.value? = some q) (positive : 0 < q)
    (h : b.wholePart = .ok n) (size : Nat) : (size : Int) ≤ n ↔ (size : Rat) ≤ q := by
  cases b with
  | notANumber => cases h
  | infinite negative => cases h
  | finite negative mantissa exponent =>
    cases value
    cases negative with
    | true =>
      have : (0 : Rat) ≤ mantissa * 2 ^ exponent := by positivity
      simp only [if_true, neg_mul, one_mul] at positive
      exact absurd positive (neg_nonpos.2 this).not_gt
    | false =>
      have powers (k : Nat) : ((twoTo k : Nat) : Rat) = 2 ^ k := by
        change ((2 ^ k : Nat) : Rat) = 2 ^ k
        rw [Nat.cast_pow, Nat.cast_ofNat]
      by_cases small : exponent < 0
      · rw [wholePart, scaled, if_pos small] at h
        cases h
        have natural : exponent = -(exponent.natAbs : Int) := by omega
        have room : 0 < twoTo exponent.natAbs := Nat.two_pow_pos _
        simp only [Bool.false_eq_true, if_false, one_mul]
        rw [Nat.cast_le, Nat.le_div_iff_mul_le room, natural, zpow_neg, zpow_natCast, Int.natAbs_neg,
          Int.natAbs_natCast, ← powers, ← div_eq_mul_inv, le_div_iff₀ (Nat.cast_pos.2 room), ← Nat.cast_mul,
          Nat.cast_le]
      · rw [wholePart, scaled, if_neg small] at h
        cases h
        have natural : exponent = (exponent.natAbs : Int) := by omega
        simp only [Bool.false_eq_true, if_false, one_mul]
        rw [Nat.cast_le, Nat.div_one, natural, zpow_natCast, Int.natAbs_natCast, ← powers, ← Nat.cast_mul,
          Nat.cast_le]

end Binary64

end ScopeComplexity.Decimal
