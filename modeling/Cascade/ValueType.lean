import Cascade.Decimal.Positional
import Cascade.Fault

/-!
# Value types

The types that a variable can be declared with.  A numeric type has a least and a greatest value,
and a number fits the type if it lies between the 64-bit numbers nearest to them.

## Main definitions

* `ValueType` : the types.
* `ValueType.limits?` : the least and the greatest value of a numeric type, exactly.
* `ValueType.bounds?` : the same as 64-bit numbers.
* `Family.compatible` : which types a variable may be passed on to.
-/

namespace Cascade

/-- The types of variables. -/
inductive ValueType where
  | i8
  | i16
  | i32
  | i64
  | u8
  | u16
  | u32
  | u64
  | f32
  | f64
  | bool
  | char
  | str
deriving DecidableEq, Repr

/-- Groups of types whose values are of one sort. -/
inductive Family where
  | signed
  | unsigned
  | float
  | bool
  | char
  | str
deriving DecidableEq, Repr

namespace Family

/-- The name of a family. -/
def name : Family → String
  | signed => "Signed"
  | unsigned => "Unsigned"
  | float => "Float"
  | bool => "Bool"
  | char => "Char"
  | str => "Str"

/-- Whether a variable of one family can be used for another.  Characters and strings go with
themselves only, and numbers and booleans go with each other. -/
def compatible : Family → Family → Bool
  | char, other => other = char
  | str, other => other = str
  | _, other => other ≠ char && other ≠ str

end Family

namespace ValueType

/-- Every type, in order. -/
def all : List ValueType :=
  [i8, i16, i32, i64, u8, u16, u32, u64, f32, f64, bool, char, str]

/-- The name that a type is written with. -/
def name : ValueType → String
  | i8 => "i8"
  | i16 => "i16"
  | i32 => "i32"
  | i64 => "i64"
  | u8 => "u8"
  | u16 => "u16"
  | u32 => "u32"
  | u64 => "u64"
  | f32 => "f32"
  | f64 => "f64"
  | bool => "bool"
  | char => "char"
  | str => "str"

/-- The type with the given name. -/
def ofName? (name : String) : Option ValueType :=
  all.find? fun type => type.name == name

/-- The type with the given name, or the fault that there is none. -/
def ofName (name : String) : Except Fault ValueType :=
  match ofName? name with
  | some type => .ok type
  | none => .error (.unknownType name)

/-- The family of a type. -/
def family : ValueType → Family
  | i8 | i16 | i32 | i64 => .signed
  | u8 | u16 | u32 | u64 => .unsigned
  | f32 | f64 => .float
  | bool => .bool
  | char => .char
  | str => .str

/-- The least and the greatest value of a numeric type. -/
def limits? : ValueType → Option (Int × Int)
  | i8 => some (-Int.pow 2 7, Int.pow 2 7 - 1)
  | i16 => some (-Int.pow 2 15, Int.pow 2 15 - 1)
  | i32 => some (-Int.pow 2 31, Int.pow 2 31 - 1)
  | i64 => some (-Int.pow 2 63, Int.pow 2 63 - 1)
  | u8 => some (0, Int.pow 2 8 - 1)
  | u16 => some (0, Int.pow 2 16 - 1)
  | u32 => some (0, Int.pow 2 32 - 1)
  | u64 => some (0, Int.pow 2 64 - 1)
  | f32 => some (-((Int.pow 2 24 - 1) * Int.pow 2 104), (Int.pow 2 24 - 1) * Int.pow 2 104)
  | f64 => some (-((Int.pow 2 53 - 1) * Int.pow 2 971), (Int.pow 2 53 - 1) * Int.pow 2 971)
  | bool | char | str => none

/-- The limits of a numeric type, rounded to 64-bit numbers. -/
def bounds? (type : ValueType) : Option (Float × Float) :=
  type.limits?.map fun (least, greatest) => (Float.ofInt least, Float.ofInt greatest)

/-- What a value of the type looks like, for messages. -/
def describe (type : ValueType) : String :=
  match type.bounds? with
  | some (min, max) =>
    type.name ++ " in [" ++ Decimal.numberText min ++ ", " ++ Decimal.numberText max ++ "]"
  | none =>
    match type with
    | bool => "boolean (true / false)"
    | char => "char"
    | _ => "string"

/-- A type is found by its own name. -/
theorem ofName?_name (type : ValueType) : ofName? type.name = some type := by
  cases type <;> decide

end ValueType

end Cascade
