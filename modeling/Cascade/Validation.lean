import Cascade.Folding.Inspect
import Cascade.Symbols

/-!
# Checking values against types

A value that depends on a variable is accepted if the variable is declared with a type that goes
with the type asked for; its size is not known and not checked.  Any other value has to be a
literal of the kind that the type asks for, and a number has to lie within the bounds.

## Main definitions

* `ValueType.checkLiteral` : checking a value that depends on no variable.
* `Symbols.checkVariable` : checking a value that depends on a variable.
* `Symbols.checkValue` : checking any value.
* `Symbols.checkAssignment` : checking a new value for a declared variable.
-/

namespace Cascade

/-- Whether a value is a literal of the kind that a type without bounds asks for. -/
def ValueType.matchesKind : ValueType → Expr → Bool
  | .bool, .boolean _ => true
  | .char, .char _ => true
  | .str, .str _ => true
  | _, _ => false

/-- Accepts a literal of the kind that the type asks for, a number only within the bounds. -/
def ValueType.checkLiteral (type : ValueType) (value : Expr) : Except Fault Unit :=
  let mismatch := Fault.kindMismatch type.describe (value.outline 0)
  match type.bounds? with
  | some (min, max) =>
    match value with
    | .number x =>
      if x < min ∨ x > max then .error (.outOfRange type.name min max x) else .ok ()
    | _ => .error mismatch
  | none => if type.matchesKind value then .ok () else .error mismatch

namespace Symbols

/-- Accepts a variable whose type goes with the type asked for. -/
def checkVariable (symbols : Symbols) (type : ValueType) (name : String) : Except Fault Unit := do
  let source ← symbols.lookup name
  if source.family.compatible type.family then .ok ()
  else .error (.typeMismatch type.name source.name)

/-- Accepts a value for a type.  The operands of an operation are folded in place on the way. -/
def checkValue (symbols : Symbols) (type : ValueType) (value : Expr) : Inspection Unit :=
  let found := value.inspect
  match found.outcome with
  | .error fault => ⟨.error fault, found.after, found.events⟩
  | .ok (some name) => ⟨symbols.checkVariable type name, found.after, found.events⟩
  | .ok none => ⟨type.checkLiteral found.after, found.after, found.events⟩

/-- Accepts a value for a declared variable, and gives the type of the variable. -/
def checkAssignment (symbols : Symbols) (name : String) (value : Expr) : Inspection ValueType :=
  match symbols.lookup name with
  | .error fault => ⟨.error fault, value, []⟩
  | .ok type =>
    let checked := symbols.checkValue type value
    ⟨checked.outcome.map fun _ => type, checked.after, checked.events⟩

end Symbols

end Cascade
