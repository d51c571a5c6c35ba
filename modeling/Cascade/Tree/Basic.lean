import Cascade.Tree.Kind
import Cascade.ValueType

/-!
# Syntax trees

An expression is anything that can stand where a value is expected; loops and conditionals are
expressions too.  A statement is an expression, an assignment or a declaration.

## Main definitions

* `Expr`, `Stmt`, `Branch` : the nodes of a tree.
* `Chain` : the branches of a conditional in source order, each linked to the one before it.
* `Expr.truth?` : the truth value of a number or boolean literal.
* `Expr.isUnresolved` : identifiers and operations, which may still depend on a variable.
* `Stmt.toExpr` : the expression that a statement is, or the statement itself.
-/

namespace Cascade

/-- The two ways to leave the body of a loop early. -/
inductive Jump where
  /-- Leave the loop. -/
  | exit
  /-- Go on with the next round. -/
  | next
deriving DecidableEq, Repr

mutual

/-- Expressions. -/
inductive Expr where
  /-- The name of a variable. -/
  | identifier (name : String)
  /-- A number, whatever the width of the variable it is for. -/
  | number (value : Float)
  | boolean (value : Bool)
  | char (value : Char)
  | str (value : String)
  /-- A unary operator in front of its operand. -/
  | unary (operator : String) (term : Expr)
  /-- A binary operator between its operands. -/
  | binary (left : Expr) (operator : String) (right : Expr)
  /-- An endless loop, with the body that is its fallback. -/
  | loop (body : List Stmt) (fallback : Option (List Stmt))
  /-- A loop with a condition. -/
  | whileLoop (condition : Expr) (body : List Stmt) (fallback : Option (List Stmt))
  /-- A loop with a condition, a first statement and a statement after each round. -/
  | forLoop (init : Stmt) (condition : Expr) (update : Stmt) (body : List Stmt)
      (fallback : Option (List Stmt))
  /-- A jump out of the body of a loop. -/
  | jump (target : Jump)
  /-- A choice between branches. -/
  | conditional (branches : List Branch)

/-- Statements. -/
inductive Stmt where
  /-- An expression on its own. -/
  | expr (value : Expr)
  /-- A new value for a variable. -/
  | assign (name : String) (value : Expr)
  /-- A new variable with its type and its first value. -/
  | declare (name : String) (type : ValueType) (isMutable : Bool) (value : Expr)

/-- One branch of a conditional: the condition, which the last resort lacks, the index of the
branch in front of it, and the body. -/
inductive Branch where
  | mk (condition : Option Expr) (before : Option Nat) (body : List Stmt)

end

instance : Inhabited Expr := ⟨.jump .exit⟩

instance : Inhabited Stmt := ⟨.expr default⟩

namespace Branch

/-- The condition of a branch. -/
def condition : Branch → Option Expr
  | mk condition _ _ => condition

/-- The index of the branch in front of this one. -/
def before : Branch → Option Nat
  | mk _ before _ => before

/-- The statements of a branch. -/
def body : Branch → List Stmt
  | mk _ _ body => body

end Branch

/-- The branches of a conditional in source order. -/
abbrev Chain := List Branch

namespace Chain

/-- The chain with one more branch, linked to the last one so far. -/
def push (chain : Chain) (body : List Stmt) (condition : Option Expr) : Chain :=
  chain ++ [.mk condition (if chain.length = 0 then none else some (chain.length - 1)) body]

/-- The branch that the branch at an index is linked to. -/
def before? (chain : Chain) (index : Nat) : Option Branch := do
  let branch ← chain[index]?
  let before ← branch.before
  chain[before]?

/-- Whether the last branch has no condition. -/
def hasElse (chain : Chain) : Bool :=
  match chain.getLast? with
  | some branch => branch.condition.isNone
  | none => false

end Chain

namespace Expr

/-- The kind of an expression. -/
def kind : Expr → NodeKind
  | identifier _ => .identifier
  | number _ => .number
  | boolean _ => .boolean
  | char _ => .char
  | str _ => .str
  | unary _ _ => .unary
  | binary _ _ _ => .binary
  | loop _ _ => .loop
  | whileLoop _ _ _ => .whileLoop
  | forLoop _ _ _ _ _ => .forLoop
  | jump .exit => .breakJump
  | jump .next => .continueJump
  | conditional _ => .conditional

/-- Whether the expression is a literal. -/
def isLiteral : Expr → Bool
  | number _ | boolean _ | char _ | str _ => true
  | _ => false

/-- The truth value of a literal that has one: a number is true unless it is zero. -/
def truth? : Expr → Option Bool
  | number value => some (value != 0.0)
  | boolean value => some value
  | _ => none

/-- Whether the expression is an operation on other expressions. -/
def isContainer : Expr → Bool
  | unary _ _ | binary _ _ _ => true
  | _ => false

/-- Whether the expression is an identifier or an operation, whose value may not be known yet. -/
def isUnresolved : Expr → Bool
  | identifier _ | unary _ _ | binary _ _ _ => true
  | _ => false

end Expr

namespace Stmt

/-- The kind of a statement. -/
def kind : Stmt → NodeKind
  | expr value => value.kind
  | assign _ _ => .assignment
  | declare _ _ _ _ => .declaration

/-- The expression that the statement is, or else the statement itself. -/
def toExpr : Stmt → Except Stmt Expr
  | expr value => .ok value
  | other => .error other

end Stmt

end Cascade
