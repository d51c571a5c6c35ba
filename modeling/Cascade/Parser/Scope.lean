import Cascade.Grammar.Production
import Cascade.Parser.Basic

/-!
# Parts of statements

What several rules have in common, for any way to read the productions and statements inside.

## Main definitions

* `Parse.onlyExpr`, `Parse.expression` : a place where only an expression is acceptable.
* `Parse.terminator` : the end of a statement.
* `Parse.scope` : statements between braces.
* `Parse.condition` : a folded condition.
* `Parse.loopBody` : the body of a loop and its fallback.
-/

namespace Cascade.Parse

/-- The expression that a step gives.  Any other statement is a fault. -/
def onlyExpr (step : Parse Stmt) : Parse Expr := do
  match (← step).toExpr with
  | .ok e => return e
  | .error stmt => fail (.invalidParenthesis (stmt.outline 0))

/-- The end of a statement: a semicolon, or the closing parenthesis around the statement, which is
left for whoever opened it. -/
def terminator : Parse Unit := do
  let token ← current
  if token.kind = .semicolon then
    let _ ← advance
  else if token.kind ≠ .closeParen then
    fail (.syntaxError "semicolon" token.value)

/-- Whether a body ends at a token of this kind. -/
def endsScope (kind : TokenKind) : Bool :=
  kind = .closeCurly || kind = .eof

/-- Statements between braces. -/
def scope (statement : Parse Stmt) : Parse (List Stmt) := do
  let _ ← expect .openCurly "opening curly brace"
  let body ← many endsScope statement
  let _ ← expect .closeCurly "closing curly brace"
  return body

/-- A production where only an expression is acceptable. -/
def expression (production : Production → Parse Stmt) (p : Production) : Parse Expr :=
  onlyExpr (production p)

/-- A condition, which is folded. -/
def condition (production : Production → Parse Stmt) : Parse Expr := do
  fold (← expression production .binary)

/-- The body of a loop and its fallback. -/
def loopBody (statement : Parse Stmt) : Parse (List Stmt × Option (List Stmt)) := do
  let body ← scope statement
  if (← kind) = .kwOr then
    let _ ← advance
    return (body, some (← scope statement))
  else return (body, none)

end Cascade.Parse
