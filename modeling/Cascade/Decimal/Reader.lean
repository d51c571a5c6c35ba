/-!
# Reading a number

A number is an optional sign and a magnitude.  A magnitude is a row of digits with at most one
point and at least one digit, followed by an optional exponent, or one of the words `inf`,
`infinity` and `nan` in any case.  The value is the 64-bit number nearest to the decimal.

## Main definitions

* `Literal` : the digits and the power of ten that a text writes.
* `Literal.ofText?` : reading digits, point and exponent.
* `readNumber?` : reading a number.
-/

namespace Cascade.Decimal

/-- A non-negative decimal as it is written: `digits * 10 ^ scale`. -/
structure Literal where
  /-- The digits on both sides of the point, as one integer. -/
  digits : Nat
  /-- The power of ten that the point and the exponent leave. -/
  scale : Int
deriving DecidableEq, Repr

/-- The integer written by a row of decimal digits. -/
def digitsValue (cs : List Char) : Nat :=
  cs.foldl (fun n c => 10 * n + (c.toNat - '0'.toNat)) 0

/-- The power of ten behind a mantissa: nothing, or the letter `e`, an optional sign and at least
one digit. -/
def exponent? : List Char → Option Int
  | [] => some 0
  | e :: cs =>
    if e = 'e' ∨ e = 'E' then
      match cs with
      | '-' :: ds => (digits? ds).map fun n => -(n : Int)
      | '+' :: ds => (digits? ds).map Int.ofNat
      | ds => (digits? ds).map Int.ofNat
    else none
where
  /-- A row of at least one digit and nothing else. -/
  digits? (ds : List Char) : Option Nat :=
    if !ds.isEmpty && ds.all Char.isDigit then some (digitsValue ds) else none

/-- Digits with an optional point among them, and an optional exponent. -/
def Literal.ofText? (cs : List Char) : Option Literal :=
  let whole := cs.takeWhile Char.isDigit
  let (fraction, rest) :=
    match cs.dropWhile Char.isDigit with
    | '.' :: ds => (ds.takeWhile Char.isDigit, ds.dropWhile Char.isDigit)
    | ds => ([], ds)
  if whole.isEmpty && fraction.isEmpty then none
  else (exponent? rest).map fun e => ⟨digitsValue (whole ++ fraction), e - fraction.length⟩

/-- The number nearest to a decimal.  A decimal above every finite number, or far below
every positive one, is answered without raising ten to its power. -/
def Literal.toFloat (l : Literal) : Float :=
  if l.digits = 0 then 0.0
  else if 400 < l.scale then 1.0 / 0.0
  else if l.digits.log2 + 3 * l.scale < -1200 then 0.0
  else Float.ofScientific l.digits (l.scale < 0) l.scale.natAbs

/-- A magnitude: a word for an infinity or for no number, or a decimal. -/
def readMagnitude? (cs : List Char) : Option Float :=
  let word := String.ofList (cs.map Char.toLower)
  if word = "inf" ∨ word = "infinity" then some (1.0 / 0.0)
  else if word = "nan" then some (0.0 / 0.0)
  else (Literal.ofText? cs).map Literal.toFloat

/-- A number: an optional sign and a magnitude. -/
def readNumber? (text : String) : Option Float :=
  match text.toList with
  | '-' :: cs => (readMagnitude? cs).map Float.neg
  | '+' :: cs => readMagnitude? cs
  | cs => readMagnitude? cs

end Cascade.Decimal
