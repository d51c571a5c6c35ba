/-!
# Numbers of the 64-bit binary format

A finite number of the format is an integer times a power of two.  The real numbers that round to
it form an interval that reaches half way to its neighbours, and halves go to the even integer.

## Main definitions

* `Binary64` : the magnitude of a finite number.
* `Binary64.ofBits` : the magnitude written by a bit pattern.
* `Binary64.lowEnd`, `Binary64.highEnd` : the ends of the interval that rounds to a magnitude.
* `Binary64.closed` : whether the ends belong to the interval.
-/

namespace Cascade.Decimal

/-- The magnitude `significand * 2 ^ exponent`. -/
structure Binary64 where
  /-- The integer, below `2 ^ 53`. -/
  significand : Nat
  /-- The power of two, at least `-1074`. -/
  exponent : Int
deriving DecidableEq, Repr

namespace Binary64

/-- The magnitude of the number with these bits, which must not be an infinity or a NaN. -/
def ofBits (bits : UInt64) : Binary64 :=
  let biased : Nat := bits.toNat / Nat.pow 2 52 % Nat.pow 2 11
  let fraction : Nat := bits.toNat % Nat.pow 2 52
  match biased with
  | 0 => ⟨fraction, -1074⟩
  | e + 1 => ⟨Nat.pow 2 52 + fraction, e - 1074⟩

/-- Whether the next magnitude below is only half as far away as the next one above.  This is so
where the exponent is about to change. -/
def narrowBelow (x : Binary64) : Bool :=
  x.significand = Nat.pow 2 52 && -1074 < x.exponent

/-- The lower end of the interval that rounds to the magnitude, in units of
`2 ^ (exponent - 2)`. -/
def lowEnd (x : Binary64) : Nat :=
  4 * x.significand - if x.narrowBelow then 1 else 2

/-- The upper end of the interval that rounds to the magnitude, in units of
`2 ^ (exponent - 2)`. -/
def highEnd (x : Binary64) : Nat :=
  4 * x.significand + 2

/-- The ends belong to the interval of an even integer. -/
def closed (x : Binary64) : Bool :=
  x.significand % 2 = 0

end Binary64

end Cascade.Decimal
