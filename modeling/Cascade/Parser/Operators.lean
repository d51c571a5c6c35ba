import Cascade.Parser.Scope

/-!
# Reading operators

The rules for binary operators and for the signs in front of a primary.  Every operation is folded
as soon as its operands are read.

## Main definitions

* `Parse.levelRule` : the binary operators of one level.
* `Parse.unaryRule` : the logical not, and the sign of a number.
-/

namespace Cascade.Parse

variable (production : Production → Parse Stmt)

/-- An operand, and perhaps an operator with the whole level on its right.  Operators of one level
group to the right, and the operation is folded at once. -/
def levelRule (whole operand : Production) (operators : List String) : Parse Stmt := do
  let left ← expression production operand
  let token ← current
  if token.isOperator operators then
    let _ ← advance
    let right ← expression production whole
    return .expr (← fold (.binary left token.value right))
  else return .expr left

/-- The negative of a folded term.  A number changes its sign, and an unresolved term is taken from
zero. -/
def negated (term : Expr) : Parse Stmt :=
  match term with
  | .number value => return .expr (.number (-value))
  | other =>
    if other.isUnresolved then return .expr (.binary (.number 0.0) "-" other)
    else fail (.invalidNegativeTerm (other.outline 0))

/-- A primary with an optional sign in front of it. -/
def unaryRule : Parse Stmt := do
  let token ← current
  if token.kind = .unaryOperator then
    let _ ← advance
    if token.value ≠ "!" then fail (.invalidUnaryOperator token.value)
    else
      let term ← expression production .primary
      return .expr (← fold (.unary token.value term))
  else if token.isOperator ["-"] then
    let _ ← advance
    let term ← fold (← expression production .primary)
    negated term
  else production .primary

end Cascade.Parse
