import Cascade.Decimal.Shortest

/-!
# The text of a number

Numbers are written positionally, whatever their size, with the fewest digits that read back.  A
whole number has no point, and the sign of zero is kept.

## Main definitions

* `Scaled.positional` : the digits of a decimal with the point where it belongs.
* `numberText` : the text of a 64-bit number.
-/

namespace Cascade.Decimal

/-- The decimal in positional notation.  The point is left out if no digit follows it, and a zero
stands in front of a point that would come first. -/
def Scaled.positional (d : Scaled) : List Char :=
  let digits := Nat.toDigits 10 d.digits
  if 0 ≤ d.scale then
    digits ++ List.replicate (if d.digits = 0 then 0 else d.scale.toNat) '0'
  else
    let places := (-d.scale).toNat
    if places < digits.length then
      digits.take (digits.length - places) ++ '.' :: digits.drop (digits.length - places)
    else
      '0' :: '.' :: List.replicate (places - digits.length) '0' ++ digits

/-- The text of a number: the shortest decimal that reads back, in positional notation. -/
def numberText (x : Float) : String :=
  if x.isNaN then "NaN"
  else
    let sign := if x.toBits.toNat < Nat.pow 2 63 then "" else "-"
    if x.isInf then sign ++ "inf"
    else
      let magnitude := Binary64.ofBits x.toBits
      if magnitude.significand = 0 then sign ++ "0"
      else sign ++ String.ofList magnitude.shortest.positional

end Cascade.Decimal
