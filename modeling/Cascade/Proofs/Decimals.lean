import Mathlib
import Cascade.Decimal.Positional
import Cascade.Decimal.Reader

/-!
# Different numbers have different texts

The text of a number is the shortest decimal that rounds to it, so it says which number it is: the
decimals that round to one magnitude do not round to another one, and the text of a decimal can be
read back.  All values are taken as rational numbers here, and nothing is rounded.

## Main definitions

* `Scaled.value`, `Literal.value` : what a decimal stands for.
* `Binary64.Rounds` : a rational number rounds to a magnitude.
* `Binary64.Canonical` : a magnitude has the form of the binary format.
* `IsNumeral` : a text has a digit in front or a minus sign and a digit, and then digits and points.

## Main results

* `Binary64.rounds_shortest` : the chosen decimal rounds to the magnitude that it was chosen for.
* `Binary64.Rounds.unique` : no rational number rounds to two magnitudes.
* `Scaled.ofText?_positional` : the text of a decimal is read back with the same value.
* `numberText_injective` : different numbers have different texts.
-/

namespace Cascade.Decimal

/-! ### Values -/

/-- What a decimal stands for. -/
def Scaled.value (d : Scaled) : ℚ :=
  d.digits * 10 ^ d.scale

/-- What a decimal stands for, as it is written. -/
def Literal.value (l : Literal) : ℚ :=
  l.digits * 10 ^ l.scale

/-- A power is moved to the other side of a comparison if it is negative. -/
theorem zpow_mul_pow_toNat {b : ℚ} (hb : b ≠ 0) (z : ℤ) :
    b ^ z * b ^ (-z).toNat = b ^ z.toNat := by
  rw [← zpow_natCast, ← zpow_natCast, ← zpow_add₀ hb]
  congr 1
  omega

/-! ### Comparisons -/

namespace Scaled

variable {d : Scaled} {n : ℕ} {e : ℤ} {x : Binary64}

/-- The two integers that are compared are the two values times a common positive factor. -/
theorem exists_factor (d : Scaled) (n : ℕ) (e : ℤ) :
    ∃ k : ℚ, 0 < k ∧
      ((d.digits * Nat.pow 10 d.scale.toNat * Nat.pow 2 (-e).toNat : ℕ) : ℚ) = d.value * k ∧
      ((n * Nat.pow 2 e.toNat * Nat.pow 10 (-d.scale).toNat : ℕ) : ℚ) = n * 2 ^ e * k := by
  have hten := zpow_mul_pow_toNat (b := 10) (by norm_num) d.scale
  have htwo := zpow_mul_pow_toNat (b := 2) (by norm_num) e
  refine ⟨10 ^ (-d.scale).toNat * 2 ^ (-e).toNat, by positivity, ?_, ?_⟩
  · simp only [Nat.pow_eq, Nat.cast_mul, Nat.cast_pow, Nat.cast_ofNat, value, ← hten]
    ring
  · simp only [Nat.pow_eq, Nat.cast_mul, Nat.cast_pow, Nat.cast_ofNat, ← htwo]
    ring

theorem cmp_eq_lt : d.cmp n e = .lt ↔ d.value < n * 2 ^ e := by
  obtain ⟨k, hk, hleft, hright⟩ := exists_factor d n e
  rw [cmp, Nat.compare_eq_lt, ← Nat.cast_lt (α := ℚ), hleft, hright, mul_lt_mul_iff_left₀ hk]

theorem cmp_eq_gt : d.cmp n e = .gt ↔ n * 2 ^ e < d.value := by
  obtain ⟨k, hk, hleft, hright⟩ := exists_factor d n e
  rw [cmp, Nat.compare_eq_gt, ← Nat.cast_lt (α := ℚ), hleft, hright, mul_lt_mul_iff_left₀ hk]

end Scaled

/-! ### Rounding -/

namespace Binary64

/-- The step between the ends of the interval of a magnitude and the magnitude itself. -/
def unit (x : Binary64) : ℚ :=
  2 ^ (x.exponent - 2)

/-- Whether a rational number rounds to a magnitude: it lies between the ends of the interval, and
not at an end if the integer is odd. -/
structure Rounds (x : Binary64) (v : ℚ) : Prop where
  low : x.lowEnd * x.unit ≤ v
  high : v ≤ x.highEnd * x.unit
  inside : x.closed = false → x.lowEnd * x.unit < v ∧ v < x.highEnd * x.unit

theorem unit_pos (x : Binary64) : 0 < x.unit :=
  zpow_pos (by norm_num) _

theorem rounds_of_readsAs {d : Scaled} {x : Binary64} (h : d.readsAs x = true) :
    x.Rounds d.value := by
  have hlow := Scaled.cmp_eq_lt (d := d) (n := x.lowEnd) (e := x.exponent - 2)
  have hlow' := Scaled.cmp_eq_gt (d := d) (n := x.lowEnd) (e := x.exponent - 2)
  have hhigh := Scaled.cmp_eq_lt (d := d) (n := x.highEnd) (e := x.exponent - 2)
  have hhigh' := Scaled.cmp_eq_gt (d := d) (n := x.highEnd) (e := x.exponent - 2)
  unfold Scaled.readsAs at h
  by_cases hclosed : x.closed = true
  · simp only [hclosed, if_true, Bool.and_eq_true, decide_eq_true_eq, ne_eq, hlow, hhigh',
      not_lt] at h
    exact ⟨h.1, h.2, fun hopen => absurd (hclosed.symm.trans hopen) (by decide)⟩
  · simp only [hclosed, Bool.false_eq_true, if_false, Bool.and_eq_true, decide_eq_true_eq, hlow',
      hhigh] at h
    exact ⟨h.1.le, h.2.le, fun _ => h⟩

/-- A magnitude rounds to itself, and it does not lie at an end of its interval. -/
theorem rounds_self {x : Binary64} (h : x.significand ≠ 0) :
    x.Rounds (x.significand * 2 ^ x.exponent) := by
  have hvalue : (x.significand * 2 ^ x.exponent : ℚ) = (4 * x.significand : ℕ) * x.unit := by
    have htwo : (2 : ℚ) ^ x.exponent = 4 * x.unit := by
      rw [unit, zpow_sub₀ (by norm_num)]
      norm_num
      ring
    rw [htwo]
    push_cast
    ring
  have hlow : (x.lowEnd : ℚ) * x.unit < (4 * x.significand : ℕ) * x.unit := by
    refine mul_lt_mul_of_pos_right (Nat.cast_lt.2 ?_) x.unit_pos
    unfold lowEnd
    split <;> omega
  have hhigh : ((4 * x.significand : ℕ) : ℚ) * x.unit < x.highEnd * x.unit := by
    refine mul_lt_mul_of_pos_right (Nat.cast_lt.2 ?_) x.unit_pos
    unfold highEnd
    omega
  rw [hvalue]
  exact ⟨hlow.le, hhigh.le, fun _ => ⟨hlow, hhigh⟩⟩

end Binary64

/-! ### The chosen decimal -/

/-- Trailing zeros that are moved into the scale do not change the value. -/
theorem Scaled.value_strip (n : ℕ) (d : Scaled) : (strip n d).value = d.value := by
  induction n generalizing d with
  | zero => rfl
  | succ n ih =>
    unfold strip
    split
    · rename_i hzero
      have hdigits : (d.digits : ℚ) = (d.digits / 10 : ℕ) * 10 := by
        exact_mod_cast (Nat.div_mul_cancel (Nat.dvd_of_mod_eq_zero hzero.2)).symm
      rw [ih, value, value, hdigits, zpow_add_one₀ (by norm_num)]
      ring
    · rfl

namespace Binary64

variable {x : Binary64}

/-- A neighbour that is chosen reads back. -/
theorem readsAs_of_neighbour? {scale : ℤ} {d : Scaled} (h : x.neighbour? scale = some d) :
    d.readsAs x = true := by
  simp only [neighbour?] at h
  split at h
  · rename_i hlower hupper
    split at h
    · cases h
      exact hlower
    · cases h
      exact hupper
  · rename_i hlower hupper
    cases h
    exact hlower
  · rename_i hlower hupper
    cases h
    exact hupper
  · cases h

theorem value_exact (x : Binary64) : x.exact.value = x.significand * 2 ^ x.exponent := by
  have htwo := zpow_mul_pow_toNat (b := 2) (by norm_num) x.exponent
  unfold exact Scaled.value
  simp only [Nat.pow_eq, Nat.cast_mul, Nat.cast_pow, Nat.cast_ofNat, ← htwo]
  split
  · rename_i hneg
    -- Each two and five of a negative power make a ten.
    obtain ⟨k, hk⟩ : ∃ k : ℕ, x.exponent = -k := ⟨(-x.exponent).toNat, by omega⟩
    have hten : (2 : ℚ) ^ k * 5 ^ k * 10 ^ (-(k : ℤ)) = 1 := by
      rw [← mul_pow, zpow_neg, zpow_natCast]
      norm_num
    rw [hk, neg_neg, Int.toNat_natCast]
    linear_combination (x.significand * 2 ^ (-(k : ℤ)) : ℚ) * hten
  · rename_i hneg
    have hzero : (-x.exponent).toNat = 0 := by omega
    simp [hzero]

/-- The chosen decimal rounds to the magnitude. -/
theorem rounds_shortest (h : x.significand ≠ 0) : x.Rounds x.shortest.value := by
  unfold shortest
  rw [Scaled.value_strip]
  cases hfound : ((List.range 17).map fun n => x.places - ((n + 1 : ℕ) : ℤ)).findSome?
      x.neighbour? with
  | some d =>
    obtain ⟨scale, -, hscale⟩ := List.exists_of_findSome?_eq_some hfound
    exact rounds_of_readsAs (readsAs_of_neighbour? hscale)
  | none =>
    rw [Option.getD_none, value_exact]
    exact rounds_self h

/-! ### Magnitudes of the format -/

/-- Whether a magnitude has the form of the binary format: only the least exponent leaves room for
small integers. -/
structure Canonical (x : Binary64) : Prop where
  lt : x.significand < 2 ^ 53
  le : -1074 ≤ x.exponent
  normal : -1074 < x.exponent → 2 ^ 52 ≤ x.significand

theorem canonical_ofBits (bits : UInt64) : (ofBits bits).Canonical := by
  have hfraction : bits.toNat % Nat.pow 2 52 < 2 ^ 52 := Nat.mod_lt _ (by decide)
  unfold ofBits
  cases bits.toNat / Nat.pow 2 52 % Nat.pow 2 11 with
  | zero => exact ⟨by simp only; omega, by simp, fun h => absurd h (by simp)⟩
  | succ e =>
    simp only [Nat.pow_eq] at hfraction ⊢
    exact ⟨by simp only; omega, by simp only; omega, fun _ => by simp only; omega⟩

/-- A magnitude says which bits it was written by, but for the sign. -/
theorem mod_eq_of_ofBits {bits bits' : UInt64} (h : ofBits bits = ofBits bits') :
    bits.toNat % 2 ^ 63 = bits'.toNat % 2 ^ 63 := by
  have hfraction : bits.toNat % 2 ^ 52 < 2 ^ 52 := Nat.mod_lt _ (by decide)
  have hfraction' : bits'.toNat % 2 ^ 52 < 2 ^ 52 := Nat.mod_lt _ (by decide)
  have hbiased : bits.toNat / 2 ^ 52 % 2 ^ 11 = bits'.toNat / 2 ^ 52 % 2 ^ 11 ∧
      bits.toNat % 2 ^ 52 = bits'.toNat % 2 ^ 52 := by
    simp only [ofBits, Nat.pow_eq] at h
    cases hb : bits.toNat / 2 ^ 52 % 2 ^ 11 <;> cases hb' : bits'.toNat / 2 ^ 52 % 2 ^ 11 <;>
      simp only [hb, hb', Binary64.mk.injEq] at h <;> omega
  omega

/-- Two intervals have no number in common if the one ends where the other begins or before, and
before it if both ends belong to their intervals. -/
theorem not_rounds_of_apart {x y : Binary64} {v : ℚ}
    (hle : x.highEnd * x.unit ≤ y.lowEnd * y.unit)
    (hlt : x.closed = true → x.highEnd * x.unit < y.lowEnd * y.unit ∨ y.closed = false)
    (hx : x.Rounds v) (hy : y.Rounds v) : False := by
  have hlow := hy.low
  have hhigh := hx.high
  by_cases hclosed : x.closed = true
  · rcases hlt hclosed with hapart | hopen
    · linarith
    · have hinside := (hy.inside hopen).1
      linarith
  · have hinside := (hx.inside (Bool.eq_false_iff.2 hclosed)).2
    linarith

theorem not_rounds_of_significand_lt {x y : Binary64} {v : ℚ} (hexponent : x.exponent = y.exponent)
    (hless : x.significand < y.significand) (hx : x.Rounds v) (hy : y.Rounds v) : False := by
  have hunit : y.unit = x.unit := by rw [unit, unit, hexponent]
  have hends : x.highEnd ≤ y.lowEnd := by
    unfold highEnd lowEnd
    split <;> omega
  refine not_rounds_of_apart ?_ (fun hclosed => ?_) hx hy
  · rw [hunit]
    exact mul_le_mul_of_nonneg_right (Nat.cast_le.2 hends) x.unit_pos.le
  · -- One of two integers in a row is odd.
    by_cases hclosed' : y.closed = true
    · left
      have hends : x.highEnd < y.lowEnd := by
        simp only [closed, decide_eq_true_eq] at hclosed hclosed'
        unfold highEnd lowEnd
        split <;> omega
      rw [hunit]
      exact mul_lt_mul_of_pos_right (Nat.cast_lt.2 hends) x.unit_pos
    · exact .inr (Bool.eq_false_iff.2 hclosed')

theorem not_rounds_of_exponent_lt {x y : Binary64} {v : ℚ} (hcx : x.Canonical) (hcy : y.Canonical)
    (hless : x.exponent < y.exponent) (hx : x.Rounds v) (hy : y.Rounds v) : False := by
  have hnormal := hcy.normal (lt_of_le_of_lt hcx.le hless)
  have hunit : 2 * x.unit ≤ y.unit := by
    rw [unit, unit, ← zpow_one_add₀ (by norm_num)]
    exact zpow_le_zpow_right₀ (by norm_num) (by omega)
  have hwide : (2 * y.lowEnd : ℕ) * x.unit ≤ y.lowEnd * y.unit := by
    calc ((2 * y.lowEnd : ℕ) : ℚ) * x.unit = y.lowEnd * (2 * x.unit) := by push_cast; ring
      _ ≤ y.lowEnd * y.unit := mul_le_mul_of_nonneg_left hunit (Nat.cast_nonneg _)
  have hlow : 2 ^ 54 - 1 ≤ y.lowEnd := by
    have hnarrow : y.narrowBelow = true ∨ 2 ^ 52 < y.significand := by
      rcases hnormal.eq_or_lt with heq | hlt
      · left
        simp [narrowBelow, ← heq, lt_of_le_of_lt hcx.le hless]
      · exact .inr hlt
    unfold lowEnd
    rcases hnarrow with hnarrow | hlarge
    · rw [hnarrow]
      simp only [if_true]
      omega
    · split <;> omega
  have hsmall := hcx.lt
  have hends : x.highEnd ≤ 2 * y.lowEnd := by
    unfold highEnd
    omega
  refine not_rounds_of_apart ?_ (fun hclosed => .inl ?_) hx hy
  · exact (mul_le_mul_of_nonneg_right (Nat.cast_le.2 hends) x.unit_pos.le).trans hwide
  · -- The greatest integer is odd.
    have hends : x.highEnd < 2 * y.lowEnd := by
      simp only [closed, decide_eq_true_eq] at hclosed
      unfold highEnd
      omega
    exact (mul_lt_mul_of_pos_right (Nat.cast_lt.2 hends) x.unit_pos).trans_le hwide

/-- No rational number rounds to two magnitudes. -/
theorem Rounds.unique {x y : Binary64} {v : ℚ} (hx : x.Rounds v) (hcx : x.Canonical)
    (hcy : y.Canonical) (hy : y.Rounds v) : x = y := by
  have hexponent : x.exponent = y.exponent := by
    rcases lt_trichotomy x.exponent y.exponent with hlt | heq | hgt
    · exact (not_rounds_of_exponent_lt hcx hcy hlt hx hy).elim
    · exact heq
    · exact (not_rounds_of_exponent_lt hcy hcx hgt hy hx).elim
  have hsignificand : x.significand = y.significand := by
    rcases lt_trichotomy x.significand y.significand with hlt | heq | hgt
    · exact (not_rounds_of_significand_lt hexponent hlt hx hy).elim
    · exact heq
    · exact (not_rounds_of_significand_lt hexponent.symm hgt hy hx).elim
  cases x
  cases y
  exact congrArg₂ Binary64.mk hsignificand hexponent

end Binary64

/-! ### Reading decimals -/

/-- A row of digits is a whole number. -/
theorem ofText?_whole {digits : List Char} (hne : digits ≠ [])
    (hdigits : ∀ d ∈ digits, d.isDigit = true) :
    Literal.ofText? digits = some ⟨digitsValue digits, 0⟩ := by
  have htake : digits.takeWhile Char.isDigit = digits := List.takeWhile_eq_self_iff.2 hdigits
  have hdrop : digits.dropWhile Char.isDigit = [] := List.dropWhile_eq_nil_iff.2 hdigits
  simp [Literal.ofText?, htake, hdrop, hne, exponent?]

/-- Two rows of digits with a point between them are a number with as many places as there are
digits behind the point. -/
theorem ofText?_decimal {digits places : List Char} (hne : digits ≠ [])
    (hdigits : ∀ d ∈ digits, d.isDigit = true) (hplaces : ∀ d ∈ places, d.isDigit = true) :
    Literal.ofText? (digits ++ '.' :: places) =
      some ⟨digitsValue (digits ++ places), -places.length⟩ := by
  have htake : (digits ++ '.' :: places).takeWhile Char.isDigit = digits := by
    rw [List.takeWhile_append_of_pos hdigits, List.takeWhile_cons_of_neg (by decide),
      List.append_nil]
  have hdrop : (digits ++ '.' :: places).dropWhile Char.isDigit = '.' :: places := by
    rw [List.dropWhile_append_of_pos hdigits, List.dropWhile_cons_of_neg (by decide)]
  have htake' : places.takeWhile Char.isDigit = places := List.takeWhile_eq_self_iff.2 hplaces
  have hdrop' : places.dropWhile Char.isDigit = [] := List.dropWhile_eq_nil_iff.2 hplaces
  simp [Literal.ofText?, htake, hdrop, htake', hdrop', hne, exponent?]

theorem digitsValue_toDigits (n : ℕ) : digitsValue (Nat.toDigits 10 n) = n :=
  Nat.ofDigitChars_ten_toDigits

theorem digitsValue_append_zeros (digits : List Char) (k : ℕ) :
    digitsValue (digits ++ List.replicate k '0') = 10 ^ k * digitsValue digits := by
  change Nat.ofDigitChars 10 (digits ++ _) 0 = 10 ^ k * Nat.ofDigitChars 10 digits 0
  rw [Nat.ofDigitChars_append, Nat.ofDigitChars_replicate_zero]

theorem digitsValue_zeros_append (k : ℕ) (digits : List Char) :
    digitsValue (List.replicate k '0' ++ digits) = digitsValue digits := by
  change Nat.ofDigitChars 10 (_ ++ digits) 0 = Nat.ofDigitChars 10 digits 0
  rw [Nat.ofDigitChars_append, Nat.ofDigitChars_replicate_zero, Nat.mul_zero]

/-! ### Positional notation -/

/-- Whether a text has a digit in front, behind a minus sign if there is one, and then digits and
points. -/
inductive IsNumeral : List Char → Prop
  | positive {c : Char} {cs : List Char} (hc : c.isDigit = true)
      (hcs : ∀ d ∈ cs, d.isDigit = true ∨ d = '.') : IsNumeral (c :: cs)
  | negative {c : Char} {cs : List Char} (hc : c.isDigit = true)
      (hcs : ∀ d ∈ cs, d.isDigit = true ∨ d = '.') : IsNumeral ('-' :: c :: cs)

namespace Scaled

/-- The positional notation of a decimal is a row of digits, or two rows of digits with a point
between them, and it is read back with the same value. -/
theorem positional_cases (d : Scaled) :
    ∃ digits places, digits ≠ [] ∧ (∀ c ∈ digits ++ places, c.isDigit = true) ∧
      (d.positional = digits ∧ places = [] ∨ d.positional = digits ++ '.' :: places) ∧
      d.value = digitsValue (digits ++ places) * 10 ^ (-(places.length : ℤ)) := by
  have hne : Nat.toDigits 10 d.digits ≠ [] := Nat.toDigits_ne_nil
  have hdigits : ∀ c ∈ Nat.toDigits 10 d.digits, c.isDigit = true :=
    fun c => Nat.isDigit_of_mem_toDigits (by decide) (by decide)
  have hzeros : ∀ k, ∀ c ∈ List.replicate k '0', c.isDigit = true := by
    intro k c hc
    rw [List.eq_of_mem_replicate hc]
    decide
  have hvalue := digitsValue_toDigits d.digits
  unfold positional
  by_cases hscale : 0 ≤ d.scale
  · rw [if_pos hscale]
    refine ⟨_, [], List.append_ne_nil_of_left_ne_nil hne _, ?_, .inl ⟨rfl, rfl⟩, ?_⟩
    · rw [List.append_nil]
      exact List.forall_mem_append.2 ⟨hdigits, hzeros _⟩
    · rw [List.append_nil, digitsValue_append_zeros, hvalue, value]
      split
      · rename_i hzero
        simp [hzero]
      · obtain ⟨k, hk⟩ := Int.eq_ofNat_of_zero_le hscale
        rw [hk, Int.toNat_natCast, zpow_natCast]
        push_cast
        simp only [List.length_nil, Nat.cast_zero, neg_zero, zpow_zero]
        ring
  · rw [if_neg hscale]
    obtain ⟨k, hk⟩ : ∃ k : ℕ, d.scale = -k := ⟨(-d.scale).toNat, by omega⟩
    rw [value, hk, neg_neg, Int.toNat_natCast]
    simp only
    by_cases hplaces : k < (Nat.toDigits 10 d.digits).length
    · rw [if_pos hplaces]
      have hlength : ((Nat.toDigits 10 d.digits).drop
          ((Nat.toDigits 10 d.digits).length - k)).length = k := by
        rw [List.length_drop]
        omega
      refine ⟨_, _, ?_, ?_, .inr rfl, ?_⟩
      · rw [ne_eq, List.take_eq_nil_iff]
        exact not_or.2 ⟨by omega, hne⟩
      · rw [List.take_append_drop]
        exact hdigits
      · rw [List.take_append_drop, hvalue, hlength]
    · rw [if_neg hplaces]
      refine ⟨['0'], List.replicate (k - (Nat.toDigits 10 d.digits).length) '0' ++
        Nat.toDigits 10 d.digits, List.cons_ne_nil _ _, ?_, .inr rfl, ?_⟩
      · exact List.forall_mem_append.2 ⟨hzeros 1, List.forall_mem_append.2 ⟨hzeros _, hdigits⟩⟩
      · have hlength : (List.replicate (k - (Nat.toDigits 10 d.digits).length) '0' ++
            Nat.toDigits 10 d.digits).length = k := by
          rw [List.length_append, List.length_replicate]
          omega
        rw [hlength, ← List.append_assoc, show ['0'] = List.replicate 1 '0' from rfl,
          List.replicate_append_replicate, digitsValue_zeros_append, hvalue]

/-- The text of a decimal is read back with the same value. -/
theorem exists_ofText?_positional (d : Scaled) :
    ∃ l, Literal.ofText? d.positional = some l ∧ l.value = d.value := by
  obtain ⟨digits, places, hne, hdigits, htext, hvalue⟩ := d.positional_cases
  obtain ⟨hwhole, hplaces⟩ := List.forall_mem_append.1 hdigits
  rcases htext with ⟨htext, rfl⟩ | htext
  · refine ⟨⟨digitsValue digits, 0⟩, by rw [htext, ofText?_whole hne hwhole], ?_⟩
    rw [hvalue, List.append_nil]
    simp [Literal.value]
  · exact ⟨⟨digitsValue (digits ++ places), -places.length⟩,
      by rw [htext, ofText?_decimal hne hwhole hplaces], hvalue.symm⟩

/-- Decimals with the same text have the same value. -/
theorem value_eq_of_positional {d d' : Scaled} (h : d.positional = d'.positional) :
    d.value = d'.value := by
  obtain ⟨l, hl, hvalue⟩ := d.exists_ofText?_positional
  obtain ⟨l', hl', hvalue'⟩ := d'.exists_ofText?_positional
  rw [h, hl'] at hl
  cases hl
  exact hvalue.symm.trans hvalue'

theorem isNumeral_positional (d : Scaled) :
    ∃ c cs, d.positional = c :: cs ∧ c.isDigit = true ∧ ∀ e ∈ cs, e.isDigit = true ∨ e = '.' := by
  obtain ⟨digits, places, hne, hdigits, htext, -⟩ := d.positional_cases
  obtain ⟨c, cs, rfl⟩ := List.exists_cons_of_ne_nil hne
  obtain ⟨hc, hrest⟩ := List.forall_mem_cons.1 hdigits
  obtain ⟨hcs, hplaces⟩ := List.forall_mem_append.1 hrest
  rcases htext with ⟨htext, -⟩ | htext
  · exact ⟨c, cs, htext, hc, fun e he => .inl (hcs e he)⟩
  · refine ⟨c, cs ++ '.' :: places, htext, hc, fun e he => ?_⟩
    rcases List.mem_append.1 he with he | he
    · exact .inl (hcs e he)
    · rcases List.mem_cons.1 he with rfl | he
      · exact .inr rfl
      · exact .inl (hplaces e he)

end Scaled

/-! ### Texts of numbers -/

/-- The decimal that is written for a magnitude. -/
def Binary64.decimal (x : Binary64) : Scaled :=
  if x.significand = 0 then ⟨0, 0⟩ else x.shortest

theorem Binary64.rounds_decimal (x : Binary64) : x.Rounds x.decimal.value := by
  unfold decimal
  split
  · rename_i hzero
    have hlow : x.lowEnd = 0 := by simp [lowEnd, hzero]
    have hvalue : Scaled.value ⟨0, 0⟩ = 0 := by simp [Scaled.value]
    rw [hvalue]
    refine ⟨by simp [hlow], ?_, fun hopen => ?_⟩
    · exact mul_nonneg (Nat.cast_nonneg _) x.unit_pos.le
    · simp [closed, hzero] at hopen
  · rename_i hzero
    exact rounds_shortest hzero

/-- The sign of a number in front of its text. -/
def signText (x : Float) : List Char :=
  if x.toBits.toNat < Nat.pow 2 63 then [] else ['-']

theorem not_special_of_isFinite {x : Float} (h : x.isFinite = true) :
    x.isNaN = false ∧ x.isInf = false := by
  change x.toModel.unpack.isFinite = true at h
  change x.toModel.unpack.isNaN = false ∧ x.toModel.unpack.isInf = false
  generalize x.toModel.unpack = unpacked at h
  cases unpacked with
  | notANumber => cases h
  | infinity sign => cases h
  | zero sign => exact ⟨rfl, rfl⟩
  | finite sign mantissa exponent mantissa_pos => exact ⟨rfl, rfl⟩

/-- A finite number is written as its sign and its decimal. -/
theorem toList_numberText {x : Float} (h : x.isFinite = true) :
    (numberText x).toList = signText x ++ (Binary64.ofBits x.toBits).decimal.positional := by
  obtain ⟨hnan, hinf⟩ := not_special_of_isFinite h
  have hsign : (if x.toBits.toNat < Nat.pow 2 63 then "" else "-").toList = signText x := by
    unfold signText
    split <;> rfl
  have hzero : "0".toList = (⟨0, 0⟩ : Scaled).positional := by decide
  simp only [numberText, hnan, hinf, Bool.false_eq_true, if_false, Binary64.decimal]
  split
  · rw [String.toList_append, hsign, hzero]
  · rw [String.toList_append, hsign, String.toList_ofList]

/-- The text of a finite number is a numeral. -/
theorem isNumeral_numberText {x : Float} (h : x.isFinite = true) :
    IsNumeral (numberText x).toList := by
  obtain ⟨c, cs, htext, hc, hcs⟩ := (Binary64.ofBits x.toBits).decimal.isNumeral_positional
  rw [toList_numberText h, htext]
  unfold signText
  split
  · exact .positive hc hcs
  · exact .negative hc hcs

/-- The text of a number is on one line. -/
theorem lineBreak_notMem_numberText (x : Float) : '\n' ∉ (numberText x).toList := by
  have hdigits : ∀ d : Scaled, '\n' ∉ d.positional := by
    intro d hmem
    obtain ⟨c, cs, htext, hc, hcs⟩ := d.isNumeral_positional
    rw [htext] at hmem
    rcases List.mem_cons.1 hmem with rfl | hmem
    · exact absurd hc (by decide)
    · exact absurd (hcs _ hmem) (by decide)
  simp only [numberText]
  split_ifs <;> simp [hdigits]

/-- A decimal begins with a digit, so the sign in front of it can be told. -/
theorem signText_append_inj {x y : Float} {d d' : Scaled}
    (h : signText x ++ d.positional = signText y ++ d'.positional) :
    (x.toBits.toNat < 2 ^ 63 ↔ y.toBits.toNat < 2 ^ 63) ∧ d.positional = d'.positional := by
  obtain ⟨c, cs, htext, hc, -⟩ := d.isNumeral_positional
  obtain ⟨c', cs', htext', hc', -⟩ := d'.isNumeral_positional
  have hminus : ∀ e : Char, e.isDigit = true → e ≠ '-' := by
    rintro _ he rfl
    cases he
  unfold signText at h
  by_cases hx : x.toBits.toNat < Nat.pow 2 63 <;> by_cases hy : y.toBits.toNat < Nat.pow 2 63
  · rw [if_pos hx, if_pos hy] at h
    exact ⟨iff_of_true hx hy, h⟩
  · rw [if_pos hx, if_neg hy, htext] at h
    exact absurd (List.cons.inj h).1 (hminus c hc)
  · rw [if_neg hx, if_pos hy, htext'] at h
    exact absurd (List.cons.inj h).1.symm (hminus c' hc')
  · rw [if_neg hx, if_neg hy] at h
    exact ⟨iff_of_false hx hy, (List.cons.inj h).2⟩

/-- Different finite numbers have different texts. -/
theorem numberText_injective {x y : Float} (hx : x.isFinite = true) (hy : y.isFinite = true)
    (h : numberText x = numberText y) : x = y := by
  have htext := congrArg String.toList h
  rw [toList_numberText hx, toList_numberText hy] at htext
  obtain ⟨hsign, hdecimal⟩ := signText_append_inj htext
  have hmagnitude : Binary64.ofBits x.toBits = Binary64.ofBits y.toBits := by
    refine (Binary64.rounds_decimal _).unique (Binary64.canonical_ofBits _)
      (Binary64.canonical_ofBits _) ?_
    rw [Scaled.value_eq_of_positional hdecimal]
    exact Binary64.rounds_decimal _
  have hbits := Binary64.mod_eq_of_ofBits hmagnitude
  have hltx := x.toBits.toNat_lt
  have hlty := y.toBits.toNat_lt
  refine Float.toBits_inj.1 (UInt64.toNat_inj.1 ?_)
  by_cases hpositive : x.toBits.toNat < 2 ^ 63
  · have hpositive' := hsign.1 hpositive
    omega
  · have hnegative' := mt hsign.2 hpositive
    omega

end Cascade.Decimal
