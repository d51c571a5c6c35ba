import Cascade.Parser.Scope

/-!
# Reading declarations and assignments

The rules for statements about variables.  Their values are folded and checked, and a value that is
refused is reported at its first token.

## Main definitions

* `Parse.declarationRule` : a new variable.
* `Parse.assignmentRule` : a new value for a variable, or an expression on its own.
-/

namespace Cascade.Parse

variable (production : Production → Parse Stmt)

/-- Whether the current token marks a variable as mutable; the mark is passed over. -/
def mutability : Parse Bool := do
  if (← kind) = .kwMut then
    let _ ← advance
    return true
  else return false

/-- The type that a declaration writes.  An unknown one is a fault at its own token. -/
def declaredType : Parse ValueType := do
  let token ← expect .typeName "type"
  settle token.span.start (ValueType.ofName token.value) []

/-- A declaration, or else an assignment.  The variable is declared when the statement is
complete. -/
def declarationRule : Parse Stmt := do
  if (← kind) ≠ .kwLet then production .assignment
  else
    let _ ← advance
    let isMutable ← mutability
    let name ← expect .identifier "identifier"
    let _ ← expect .colon "colon"
    let type ← declaredType
    let _ ← expect .assign "assignment symbol"
    let start ← position
    let value ← fold (← expression production .binary)
    let value ← checkValue start type value
    let _ ← expect .semicolon "semicolon"
    declare name.value type
    return .declare name.value type isMutable value

/-- What follows the target of an assignment. -/
def assignmentTail (name : String) : Parse Stmt := do
  let _ ← advance
  let start ← position
  let value ← fold (← expression production .binary)
  let value ← checkAssignment start name value
  terminator
  return .assign name value

/-- An assignment, or else an expression on its own.  Only a bare identifier in front of the
assignment sign is a target. -/
def assignmentRule : Parse Stmt := do
  let target ← expression production .binary
  match target, ← kind with
  | .identifier name, .assign => assignmentTail production name
  | _, _ =>
    terminator
    return .expr target

end Cascade.Parse
