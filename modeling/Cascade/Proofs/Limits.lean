import Mathlib
import Cascade.Proofs.Bounds
import Cascade.Proofs.Decimals
import Cascade.Proofs.Verdicts

/-!
# Limits of the integer types

A finite number stands for a rational number, its sign and its magnitude, and numbers are compared
like the rational numbers that they stand for.  So an integer type accepts the numbers between its
limits after these are rounded.  Up to 32 bits nothing is rounded, and the numbers accepted are
those within the limits.  The greatest value of a type of 64 bits is rounded up to the next whole
number, which is accepted although it lies above the limits; it is the only such number, because
there are no fractions among numbers of this size.

## Main definitions

* `Binary64.value`, `Number.value` : what a magnitude and a finite number stand for.
* `ValueType.IsInteger`, `ValueType.IsWide` : the types of whole numbers, and those of 64 bits.

## Main results

* `Number.unpack_of_isFinite` : a finite number is made of its sign and its magnitude.
* `Number.lt_iff_value_lt` : numbers are compared like what they stand for.
* `ValueType.value_limits` : what the rounded limits of an integer type stand for.
* `Symbols.accepts_number_iff` : the finite numbers that an integer type accepts.
* `Symbols.accepted_within_limits_iff` : the accepted numbers that lie within the limits.
-/

namespace Cascade

/-! ### Magnitudes as rational numbers -/

namespace Decimal.Binary64

variable {x y : Binary64}

/-- The rational number that a magnitude stands for. -/
def value (x : Binary64) : ℚ :=
  x.significand * 2 ^ x.exponent

theorem value_nonneg (x : Binary64) : 0 ≤ x.value :=
  mul_nonneg (Nat.cast_nonneg _) (zpow_nonneg (by norm_num) _)

theorem value_pos (h : 0 < x.significand) : 0 < x.value :=
  mul_pos (Nat.cast_pos.2 h) (zpow_pos (by norm_num) _)

/-- Of two magnitudes the one with the greater exponent is the greater one. -/
theorem value_lt_of_exponent_lt (hx : x.Canonical) (hy : y.Canonical)
    (h : x.exponent < y.exponent) : x.value < y.value := by
  have hnormal : (2 : ℚ) ^ 52 ≤ y.significand := by
    exact_mod_cast hy.normal (lt_of_le_of_lt hx.le h)
  have hsmall : (x.significand : ℚ) < 2 ^ 53 := by exact_mod_cast hx.lt
  calc x.value < 2 ^ 53 * 2 ^ x.exponent := mul_lt_mul_of_pos_right hsmall (by positivity)
    _ = 2 ^ 52 * 2 ^ (x.exponent + 1) := by rw [zpow_add_one₀ (by norm_num)]; ring
    _ ≤ 2 ^ 52 * 2 ^ y.exponent :=
      mul_le_mul_of_nonneg_left (zpow_le_zpow_right₀ (by norm_num) h) (by norm_num)
    _ ≤ y.value := mul_le_mul_of_nonneg_right hnormal (by positivity)

/-- Magnitudes are compared by their exponents and then by their integers. -/
theorem compare_then_eq_lt_iff (hx : x.Canonical) (hy : y.Canonical) :
    (compare x.exponent y.exponent).then (compare x.significand y.significand) = .lt ↔
      x.value < y.value := by
  rcases lt_trichotomy x.exponent y.exponent with hlt | heq | hgt
  · simp [compare_lt_iff_lt.2 hlt, value_lt_of_exponent_lt hx hy hlt]
  · have hunit : (0 : ℚ) < 2 ^ y.exponent := by positivity
    rw [heq, compare_eq_iff_eq.2 rfl, Ordering.then, Nat.compare_eq_lt, value, value, heq,
      mul_lt_mul_iff_left₀ hunit, Nat.cast_lt]
  · simp [compare_gt_iff_gt.2 hgt, (value_lt_of_exponent_lt hy hx hgt).le]

/-- A magnitude below a large whole number is below the preceding whole number already, or equal
to it: the integers of large magnitudes leave no room for fractions. -/
theorem value_le_sub_one (hx : x.Canonical) {n : ℕ} (hn : 2 ^ 53 ≤ n) (h : x.value < n) :
    x.value ≤ n - 1 := by
  rcases le_or_gt 0 x.exponent with hwhole | hfraction
  · obtain ⟨k, hk⟩ := Int.eq_ofNat_of_zero_le hwhole
    have hvalue : x.value = (x.significand * 2 ^ k : ℕ) := by
      rw [value, hk]
      push_cast
      rfl
    rw [hvalue] at h ⊢
    have hnat : x.significand * 2 ^ k + 1 ≤ n := Nat.cast_lt.1 h
    rw [le_sub_iff_add_le]
    exact_mod_cast hnat
  · have hunit : (2 : ℚ) ^ x.exponent ≤ 1 := zpow_le_one_of_nonpos₀ (by norm_num) hfraction.le
    have hnat : x.significand + 1 ≤ n := le_trans hx.lt hn
    calc x.value ≤ x.significand * 1 := mul_le_mul_of_nonneg_left hunit (Nat.cast_nonneg _)
      _ ≤ n - 1 := by
        rw [mul_one, le_sub_iff_add_le]
        exact_mod_cast hnat

end Decimal.Binary64

/-! ### Numbers as rational numbers -/

namespace Number

open Decimal Float.Model UnpackedFloat

/-- The sign of a number. -/
def sign (x : Float) : Sign :=
  if x.toBits.toNat < 2 ^ 63 then .positive else .negative

/-- The magnitude of a number. -/
def magnitude (x : Float) : Binary64 :=
  .ofBits x.toBits

/-- A rational number with a sign. -/
def signed : Sign → ℚ → ℚ
  | .positive, q => q
  | .negative, q => -q

/-- The rational number that a finite number stands for. -/
def value (x : Float) : ℚ :=
  signed (sign x) (magnitude x).value

theorem toNat_unpackMantissa (bits : UInt64) :
    (@unpackMantissa Format.binary64 bits.toBitVec).toNat = bits.toNat % 2 ^ 52 := by
  rw [unpackMantissa_def, BitVec.extractLsb'_toNat]
  rfl

theorem toNat_unpackExponent (bits : UInt64) :
    (@unpackExponent Format.binary64 bits.toBitVec).toNat =
      bits.toNat / 2 ^ 52 % 2 ^ 11 := by
  rw [unpackExponent_def, BitVec.extractLsb'_toNat, Nat.shiftRight_eq_div_pow]
  rfl

theorem ofBitVec_unpackSign (x : Float) :
    Sign.ofBitVec (@unpackSign Format.binary64 x.toBits.toBitVec) = sign x := by
  have hbit : (@unpackSign Format.binary64 x.toBits.toBitVec).toNat =
      x.toBits.toNat / 2 ^ 63 % 2 ^ 1 := by
    rw [unpackSign_def, BitVec.extractLsb'_toNat, Nat.shiftRight_eq_div_pow]
    rfl
  have hrange := x.toBits.toNat_lt
  have hzero : @unpackSign Format.binary64 x.toBits.toBitVec = 0#1 ↔
      x.toBits.toNat < 2 ^ 63 := by
    rw [← BitVec.toNat_inj, hbit, BitVec.toNat_ofNat]
    omega
  simp only [Sign.ofBitVec, sign, hzero]

/-- The magnitude of a number whose exponent bits are all zero. -/
theorem magnitude_of_subnormal {x : Float} (h : x.toBits.toNat / 2 ^ 52 % 2 ^ 11 = 0) :
    magnitude x = ⟨x.toBits.toNat % 2 ^ 52, -1074⟩ := by
  simp only [magnitude, Binary64.ofBits, Nat.pow_eq, h]

/-- The magnitude of a number whose exponent bits are not all zero. -/
theorem magnitude_of_normal {x : Float} (h : x.toBits.toNat / 2 ^ 52 % 2 ^ 11 ≠ 0) :
    magnitude x =
      ⟨2 ^ 52 + x.toBits.toNat % 2 ^ 52, (x.toBits.toNat / 2 ^ 52 % 2 ^ 11 : ℕ) - 1075⟩ := by
  obtain ⟨e, he⟩ := Nat.exists_eq_succ_of_ne_zero h
  simp only [magnitude, Binary64.ofBits, Nat.pow_eq, he]
  congr 1
  omega

/-- The integer of a number whose exponent bits are not all zero has one more bit in front. -/
theorem toNat_append_unpackMantissa (bits : UInt64) :
    (1#1 ++ @unpackMantissa Format.binary64 bits.toBitVec).toNat =
      2 ^ 52 + bits.toNat % 2 ^ 52 := by
  have hlt := (@unpackMantissa Format.binary64 bits.toBitVec).isLt
  rw [BitVec.toNat_append, ← Nat.shiftLeft_add_eq_or_of_lt hlt, toNat_unpackMantissa]
  rfl

theorem finite_congr {s : Sign} {m m' : ℕ} {e e' : ℤ} {h : 0 < m} (h' : 0 < m') (hm : m = m')
    (he : e = e') : UnpackedFloat.finite s m e h = .finite s m' e' h' := by
  subst hm he
  rfl

/-- A finite number is a zero or is made of its sign and its magnitude. -/
theorem unpack_of_isFinite {x : Float} (h : x.isFinite = true) :
    (magnitude x).significand = 0 ∧ x.toModel.unpack = .zero (sign x) ∨
      ∃ hpos, x.toModel.unpack =
        .finite (sign x) (magnitude x).significand (magnitude x).exponent hpos := by
  have hunpack : x.toModel.unpack = UnpackedFloat.unpack Format.binary64 x.toBits.toBitVec := rfl
  have hmantissa := toNat_unpackMantissa x.toBits
  have hexponent := toNat_unpackExponent x.toBits
  have hbias : Format.binary64.exponentBias = 1023 := by decide
  change x.toModel.unpack.isFinite = true at h
  rw [hunpack, UnpackedFloat.unpack] at h ⊢
  simp only [ofBitVec_unpackSign, hbias] at h ⊢
  split at h
  · split at h <;> cases h
  · rename_i hspecial
    rw [if_neg hspecial]
    by_cases hzero : @unpackExponent Format.binary64 x.toBits.toBitVec = 0#11
    · have hbiased : x.toBits.toNat / 2 ^ 52 % 2 ^ 11 = 0 := by rw [← hexponent, hzero]; rfl
      rw [if_pos hzero, magnitude_of_subnormal hbiased]
      by_cases hfraction : @unpackMantissa Format.binary64 x.toBits.toBitVec = 0#52
      · rw [dif_pos hfraction]
        exact .inl ⟨by rw [← hmantissa, hfraction]; rfl, rfl⟩
      · rw [dif_neg hfraction]
        have hpos : 0 < x.toBits.toNat % 2 ^ 52 :=
          Nat.pos_of_ne_zero fun h => hfraction (BitVec.eq_of_toNat_eq (hmantissa.trans h))
        exact .inr ⟨hpos, finite_congr hpos hmantissa (by rw [hexponent, hbiased]; norm_num)⟩
    · have hbiased : x.toBits.toNat / 2 ^ 52 % 2 ^ 11 ≠ 0 := by
        rw [← hexponent]
        exact fun h => hzero (BitVec.eq_of_toNat_eq h)
      rw [if_neg hzero, magnitude_of_normal hbiased]
      exact .inr ⟨by positivity, finite_congr _ (toNat_append_unpackMantissa x.toBits)
        (by rw [hexponent]; norm_num)⟩

/-! ### Comparisons -/

/-- Magnitudes other than zero are compared, with their signs, like what they stand for. -/
theorem compare_finite_eq_lt_iff {a b : Binary64} (ha : a.Canonical) (hb : b.Canonical)
    (hposa : 0 < a.significand) (hposb : 0 < b.significand) (s t : Sign) :
    (UnpackedFloat.finite s a.significand a.exponent hposa).compare
        (.finite t b.significand b.exponent hposb) = some .lt ↔
      signed s a.value < signed t b.value := by
  have hvaluea := Binary64.value_pos hposa
  have hvalueb := Binary64.value_pos hposb
  cases s <;> cases t <;> simp only [UnpackedFloat.compare, signed, Option.some.injEq]
  · -- With a minus sign on both sides, the greater magnitude is the lesser number.
    rw [Ordering.swap_then, Int.compare_swap, Nat.compare_swap, neg_lt_neg_iff]
    exact Binary64.compare_then_eq_lt_iff hb ha
  · simp only [true_iff]
    linarith
  · simp only [reduceCtorEq, false_iff, not_lt]
    linarith
  · exact Binary64.compare_then_eq_lt_iff ha hb

theorem value_of_significand_eq_zero {x : Float} (h : (magnitude x).significand = 0) :
    value x = 0 := by
  unfold value
  cases sign x <;> simp [signed, Binary64.value, h]

/-- Finite numbers are compared like the rational numbers that they stand for. -/
theorem lt_iff_value_lt {x y : Float} (hx : x.isFinite = true) (hy : y.isFinite = true) :
    x < y ↔ value x < value y := by
  rw [lt_iff_compare]
  rcases unpack_of_isFinite hx with ⟨hzerox, hx⟩ | ⟨hposx, hx⟩ <;>
    rcases unpack_of_isFinite hy with ⟨hzeroy, hy⟩ | ⟨hposy, hy⟩ <;> rw [hx, hy]
  · rw [value_of_significand_eq_zero hzerox, value_of_significand_eq_zero hzeroy]
    simp [UnpackedFloat.compare]
  · have hpos := Binary64.value_pos hposy
    rw [value_of_significand_eq_zero hzerox, value]
    cases sign y <;> simp [UnpackedFloat.compare, signed, hpos, hpos.le]
  · have hpos := Binary64.value_pos hposx
    rw [value_of_significand_eq_zero hzeroy, value]
    cases sign x <;> simp [UnpackedFloat.compare, signed, hpos, hpos.le]
  · exact compare_finite_eq_lt_iff (Binary64.canonical_ofBits _) (Binary64.canonical_ofBits _) hposx
      hposy (sign x) (sign y)

/-- A number below a large whole number is not above the whole number before it. -/
theorem value_le_sub_one {x : Float} {n : ℕ} (hn : 2 ^ 53 ≤ n) (h : value x < n) :
    value x ≤ n - 1 := by
  rw [value] at h ⊢
  cases hsign : sign x with
  | positive =>
    rw [hsign] at h
    exact Binary64.value_le_sub_one (Binary64.canonical_ofBits _) hn h
  | negative =>
    have hone : (1 : ℚ) ≤ n := by exact_mod_cast le_trans (by norm_num) hn
    have hnonneg := (magnitude x).value_nonneg
    simp only [signed]
    linarith

end Number

/-! ### Accepted numbers -/

namespace ValueType

open Number

variable {type : ValueType} {least greatest : ℤ}

/-- Whether the values of the type are whole numbers. -/
def IsInteger (type : ValueType) : Prop :=
  type.family = .signed ∨ type.family = .unsigned

/-- Whether the greatest value of the type has more bits than the integer of a number. -/
def IsWide (type : ValueType) : Prop :=
  type = .i64 ∨ type = .u64

instance (type : ValueType) : Decidable type.IsWide :=
  inferInstanceAs (Decidable (_ ∨ _))

/-- The least value of an integer type is a number, and so is the greatest one, unless it is rounded
up to the next whole number. -/
theorem value_limits (hinteger : type.IsInteger) (hlimits : type.limits? = some (least, greatest)) :
    (Float.ofInt least).isFinite = true ∧ (Float.ofInt greatest).isFinite = true ∧
      value (Float.ofInt least) = least ∧
      value (Float.ofInt greatest) = if type.IsWide then (greatest : ℚ) + 1 else greatest := by
  cases type with
  | f32 | f64 | bool | char | str => simp [IsInteger, family] at hinteger
  | i8 | i16 | i32 | i64 | u8 | u16 | u32 | u64 =>
    cases hlimits
    decide +kernel

/-- A number fits a type with limits if it is neither below nor above the rounded limits. -/
theorem fits_number_iff {v : Float} (hlimits : type.limits? = some (least, greatest)) :
    type.Fits (.number v) ↔ ¬v < Float.ofInt least ∧ ¬v > Float.ofInt greatest := by
  have hbounds : type.bounds? = some (Float.ofInt least, Float.ofInt greatest) := by
    rw [bounds?, hlimits]
    rfl
  constructor
  · rintro ⟨hbounds', hmin, hmax⟩
    cases hbounds.symm.trans hbounds'
    exact ⟨hmin, hmax⟩
  · rintro ⟨hmin, hmax⟩
    exact .number hbounds hmin hmax

/-- The limits of a wide type are far from each other, and the greatest value is a large one. -/
theorem limits_of_isWide (hwide : type.IsWide) (hlimits : type.limits? = some (least, greatest)) :
    least ≤ 0 ∧ 2 ^ 53 ≤ greatest := by
  rcases hwide with rfl | rfl <;> cases hlimits <;> decide

end ValueType

namespace Symbols

open Number

variable {symbols : Symbols} {type : ValueType} {least greatest : ℤ} {v : Float}

/-- A number is accepted if and only if it fits the type. -/
theorem accepts_number_iff_fits : symbols.Accepts type (.number v) ↔ type.Fits (.number v) := by
  have hfolded : (Expr.number v).IsFolded := trivial
  rw [Accepts, outcome_checkValue hfolded]
  exact ValueType.checkLiteral_eq_ok_iff

/-- The finite numbers that an integer type accepts: those within the limits of the type and, if
the type is a wide one, the whole number above them. -/
theorem accepts_number_iff (hinteger : type.IsInteger)
    (hlimits : type.limits? = some (least, greatest)) (hfinite : v.isFinite = true) :
    symbols.Accepts type (.number v) ↔
      (least ≤ value v ∧ value v ≤ greatest) ∨ (type.IsWide ∧ value v = greatest + 1) := by
  obtain ⟨hleast, hgreatest, hmin, hmax⟩ := ValueType.value_limits hinteger hlimits
  rw [accepts_number_iff_fits, ValueType.fits_number_iff hlimits, gt_iff_lt,
    lt_iff_value_lt hfinite hleast, lt_iff_value_lt hgreatest hfinite, not_lt, not_lt, hmin, hmax]
  by_cases hwide : type.IsWide
  · obtain ⟨hnonpos, hlarge⟩ := ValueType.limits_of_isWide hwide hlimits
    obtain ⟨n, rfl⟩ := Int.eq_ofNat_of_zero_le (le_trans (by norm_num) hlarge)
    have hnonpos : (least : ℚ) ≤ 0 := by exact_mod_cast hnonpos
    have hlarge : 2 ^ 53 ≤ n + 1 := by omega
    simp only [hwide, if_true, true_and, Int.cast_natCast]
    constructor
    · rintro ⟨hlow, hhigh⟩
      rcases hhigh.eq_or_lt with heq | hlt
      · exact .inr heq
      · -- No number lies between two whole numbers of this size.
        have hle := value_le_sub_one (x := v) hlarge (by exact_mod_cast hlt)
        push_cast at hle
        exact .inl ⟨hlow, by linarith⟩
    · rintro (⟨hlow, hhigh⟩ | heq)
      · exact ⟨hlow, by linarith⟩
      · have hn : (0 : ℚ) ≤ n := Nat.cast_nonneg n
        exact ⟨by linarith, heq.le⟩
  · simp only [hwide, if_false, false_and, or_false]

/-- A finite number that is accepted for an integer type lies within the limits of the type, unless
the type has 64 bits and the number is the whole number above the greatest value. -/
theorem accepted_within_limits_iff (symbols : Symbols) (type : ValueType)
    (hinteger : type.IsInteger) (least greatest : ℤ)
    (hlimits : type.limits? = some (least, greatest)) (v : Float) (hfinite : v.isFinite = true)
    (h : symbols.Accepts type (.number v)) :
    (least ≤ value v ∧ value v ≤ greatest) ↔ ¬(type.IsWide ∧ value v = greatest + 1) := by
  constructor
  · rintro ⟨-, hhigh⟩ ⟨-, habove⟩
    linarith
  · intro hregular
    exact ((accepts_number_iff hinteger hlimits hfinite).1 h).resolve_right hregular

/-- The greatest number below the greatest value of a type of 64 bits lies within the limits. -/
theorem accepted_within_limits_below :
    empty.Accepts .i64 (.number 9223372036854774784.0) ∧
      ((-2 ^ 63 : ℤ) : ℚ) ≤ value 9223372036854774784.0 ∧
      value 9223372036854774784.0 ≤ ((2 ^ 63 - 1 : ℤ) : ℚ) := by
  have hlimits : ValueType.i64.limits? = some (-2 ^ 63, 2 ^ 63 - 1) := by decide
  have haccepts : empty.Accepts .i64 (.number 9223372036854774784.0) :=
    accepts_number_iff_fits.2 ((ValueType.fits_number_iff hlimits).2 (by decide +kernel))
  refine ⟨haccepts, ?_⟩
  exact (accepted_within_limits_iff empty .i64 (.inl rfl) _ _ hlimits _ (by decide +kernel)
    haccepts).2 (by decide +kernel)

/-- The types of 64 bits accept a number above their greatest values. -/
theorem accepts_above_limits :
    (ValueType.i64.limits? = some (-2 ^ 63, 2 ^ 63 - 1) ∧
        (9223372036854775808.0 : Float).isFinite = true ∧
        empty.Accepts .i64 (.number 9223372036854775808.0) ∧
        ¬value 9223372036854775808.0 ≤ ((2 ^ 63 - 1 : ℤ) : ℚ)) ∧
      (ValueType.u64.limits? = some (0, 2 ^ 64 - 1) ∧
        (18446744073709551616.0 : Float).isFinite = true ∧
        empty.Accepts .u64 (.number 18446744073709551616.0) ∧
        ¬value 18446744073709551616.0 ≤ ((2 ^ 64 - 1 : ℤ) : ℚ)) := by
  have hsigned : ValueType.i64.limits? = some (-2 ^ 63, 2 ^ 63 - 1) := by decide
  have hunsigned : ValueType.u64.limits? = some (0, 2 ^ 64 - 1) := by decide
  refine ⟨⟨hsigned, by decide +kernel, ?_, by decide +kernel⟩,
    ⟨hunsigned, by decide +kernel, ?_, by decide +kernel⟩⟩
  · exact accepts_number_iff_fits.2 ((ValueType.fits_number_iff hsigned).2 (by decide +kernel))
  · exact accepts_number_iff_fits.2 ((ValueType.fits_number_iff hunsigned).2 (by decide +kernel))

end Symbols

end Cascade
