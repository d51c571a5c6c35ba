import Cascade.Decimal.Binary

/-!
# The shortest decimal that reads back

Of all decimals that round to a given magnitude, one with the fewest digits is chosen, and of
these the one nearest to the magnitude; half way between two of them the larger is taken.  All
comparisons are made on natural numbers, so nothing is rounded on the way.

## Main definitions

* `Scaled` : a decimal, as an integer times a power of ten.
* `Scaled.cmp` : a decimal compared with a multiple of a power of two.
* `Scaled.readsAs` : the decimal rounds to the magnitude.
* `Binary64.shortest` : the chosen decimal.
-/

namespace Cascade.Decimal

/-- The decimal `digits * 10 ^ scale`. -/
structure Scaled where
  /-- The digits, as one integer. -/
  digits : Nat
  /-- The power of ten. -/
  scale : Int
deriving DecidableEq, Repr

namespace Scaled

/-- How the decimal compares with `n * 2 ^ e`.  Negative powers are moved to the other side. -/
def cmp (d : Scaled) (n : Nat) (e : Int) : Ordering :=
  compare (d.digits * Nat.pow 10 d.scale.toNat * Nat.pow 2 (-e).toNat)
    (n * Nat.pow 2 e.toNat * Nat.pow 10 (-d.scale).toNat)

/-- Whether the decimal lies in the interval that rounds to the magnitude. -/
def readsAs (d : Scaled) (x : Binary64) : Bool :=
  let low := d.cmp x.lowEnd (x.exponent - 2)
  let high := d.cmp x.highEnd (x.exponent - 2)
  if x.closed then low ≠ .lt && high ≠ .gt else low = .gt && high = .lt

/-- The decimal with its trailing zeros moved into the scale, at most as many as given. -/
def strip : Nat → Scaled → Scaled
  | 0, d => d
  | n + 1, d =>
    if d.digits ≠ 0 ∧ d.digits % 10 = 0 then strip n ⟨d.digits / 10, d.scale + 1⟩ else d

end Scaled

namespace Binary64

/-- How often `10 ^ scale` goes into the magnitude. -/
def quotient (x : Binary64) (scale : Int) : Nat :=
  (x.significand * Nat.pow 2 x.exponent.toNat * Nat.pow 10 (-scale).toNat) /
    (Nat.pow 2 (-x.exponent).toNat * Nat.pow 10 scale.toNat)

/-- The number of digits in front of the point, or minus the number of zeros behind it: the least
`k` such that the magnitude is below `10 ^ k`.  The binary logarithm gives it up to two steps. -/
def places (x : Binary64) : Int :=
  let guess := ((x.significand.log2 + x.exponent) * 30103).fdiv 100000
  let candidates := [guess - 1, guess, guess + 1, guess + 2]
  (candidates.find? fun k => Scaled.cmp ⟨1, k⟩ x.significand x.exponent = .gt).getD (guess + 3)

/-- The better of the two multiples of `10 ^ scale` around the magnitude, if one of them reads
back: the nearer one, and half way between them the upper one. -/
def neighbour? (x : Binary64) (scale : Int) : Option Scaled :=
  let below := x.quotient scale
  let lower : Scaled := ⟨below, scale⟩
  let upper : Scaled := ⟨below + 1, scale⟩
  let middle : Scaled := ⟨2 * below + 1, scale⟩
  match lower.readsAs x, upper.readsAs x with
  | true, true =>
    if middle.cmp (2 * x.significand) x.exponent = .gt then some lower else some upper
  | true, false => some lower
  | false, true => some upper
  | false, false => none

/-- The exact value of the magnitude, for which a long row of digits may be needed. -/
def exact (x : Binary64) : Scaled :=
  ⟨x.significand * Nat.pow 2 x.exponent.toNat * Nat.pow 5 (-x.exponent).toNat,
    if x.exponent < 0 then x.exponent else 0⟩

/-- The decimal with the fewest digits that reads back.  Seventeen digits suffice for every
number of the format. -/
def shortest (x : Binary64) : Scaled :=
  let scales := (List.range 17).map fun n => x.places - ((n + 1 : Nat) : Int)
  Scaled.strip 20 ((scales.findSome? x.neighbour?).getD x.exact)

end Binary64

end Cascade.Decimal
