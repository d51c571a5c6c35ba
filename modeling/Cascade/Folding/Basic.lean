import Cascade.Trace

/-!
# Folding constants

Folding carries out every operation whose operands are known.  What is left is a literal, or an
operation that still has an identifier or another operation among its operands.  Loops,
conditionals and jumps are left as they are.

## Main definitions

* `combineNumbers`, `combine` : an operation on folded operands.
* `applyUnary` : a unary operator on a folded operand.
* `Expr.foldTraced` : folding, with its events.
* `Expr.fold`, `Expr.foldEvents` : the two halves of it.
* `Stmt.foldTraced` : folding the value that a statement carries.

## Main results

* `Expr.fold_unary`, `Expr.fold_binary` : folding goes from the operands to the operation, the
  left operand first.
-/

namespace Cascade

/-- An operation on two numbers. -/
def combineNumbers (left : Float) (operator : String) (right : Float) : Except Fault Expr :=
  match operator with
  | "+" => .ok (.number (left + right))
  | "-" => .ok (.number (left - right))
  | "*" => .ok (.number (left * right))
  | "/" =>
    if right == 0.0 then .error (.divisionByZero (Decimal.numberText left))
    else .ok (.number (left / right))
  | "&&" => .ok (.boolean (left != 0.0 && right != 0.0))
  | "||" => .ok (.boolean (left != 0.0 || right != 0.0))
  | _ => .error (.invalidOperator operator NodeKind.number.name NodeKind.number.name)

/-- An operation on two truth values, of which one at least comes from a boolean. -/
def combineTruths (left : Expr) (operator : String) (right : Expr) (p q : Bool) :
    Except Fault Expr :=
  match operator with
  | "&&" => .ok (.boolean (p && q))
  | "||" => .ok (.boolean (p || q))
  | _ => .error (.invalidOperator operator left.kind.name right.kind.name)

/-- An operation on operands that are not both numbers: it is carried out on truth values, kept if
an operand is unresolved, and refused otherwise. -/
def combineOthers (left : Expr) (operator : String) (right : Expr) : Except Fault Expr :=
  match left.truth?, right.truth? with
  | some p, some q => combineTruths left operator right p q
  | _, _ =>
    if left.isUnresolved || right.isUnresolved then .ok (.binary left operator right)
    else .error (.invalidOperands operator (left.outline 0) (right.outline 0))

/-- An operation on folded operands.  Only an operation on two numbers is told as an event. -/
def combine (left : Expr) (operator : String) (right : Expr) : Traced Expr :=
  match left, right with
  | .number a, .number b =>
    match combineNumbers a operator b with
    | .ok value => ⟨.ok value, [.folded a operator b value]⟩
    | .error fault => .fail fault
  | _, _ => ⟨combineOthers left operator right, []⟩

/-- A unary operator on a folded operand: the logical not of a boolean is carried out, and
everything else is kept. -/
def applyUnary (operator : String) : Expr → Expr
  | .boolean value => if operator = "!" then .boolean (!value) else .unary operator (.boolean value)
  | term => .unary operator term

namespace Expr

/-- The expression with every known operation carried out, or the first fault on the way, the
left operand first; and the events in order. -/
def foldTraced : Expr → Traced Expr
  | unary operator term => do
    let term ← term.foldTraced
    return applyUnary operator term
  | binary left operator right => do
    let left ← left.foldTraced
    let right ← right.foldTraced
    combine left operator right
  | other => pure other

/-- The expression with every known operation carried out. -/
def fold (e : Expr) : Except Fault Expr :=
  e.foldTraced.result

/-- What happens while an expression is folded. -/
def foldEvents (e : Expr) : List Event :=
  e.foldTraced.events

theorem fold_unary (operator : String) (term : Expr) :
    (unary operator term).fold = term.fold.map (applyUnary operator) := by
  simp only [fold, foldTraced, Traced.result_bind, Traced.result_pure]
  cases term.foldTraced.result <;> rfl

theorem fold_binary (left : Expr) (operator : String) (right : Expr) :
    (binary left operator right).fold =
      left.fold.bind fun l => right.fold.bind fun r => (combine l operator r).result := by
  simp only [fold, foldTraced, Traced.result_bind]
  rfl

/-- An expression that is no operation is its own folded form. -/
theorem fold_of_not_isContainer {e : Expr} (h : e.isContainer = false) : e.fold = .ok e := by
  cases e <;> simp_all [isContainer, fold, foldTraced]

end Expr

/-- The result of an operation on folded operands. -/
theorem result_combine (left : Expr) (operator : String) (right : Expr) :
    (combine left operator right).result =
      match left, right with
      | .number a, .number b => combineNumbers a operator b
      | _, _ => combineOthers left operator right := by
  unfold combine
  split
  · split <;> simp_all
  · rfl

/-- The statement with the value it carries folded. -/
def Stmt.foldTraced : Stmt → Traced Stmt
  | .expr value => do
    return .expr (← value.foldTraced)
  | .assign name value => do
    return .assign name (← value.foldTraced)
  | .declare name type isMutable value => do
    return .declare name type isMutable (← value.foldTraced)

end Cascade
