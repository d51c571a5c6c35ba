import Cascade.Grammar.Rule
import Cascade.Parser.Scope

/-!
# Reading primaries

The rules for the smallest expressions: parentheses and single tokens.

## Main definitions

* `Parse.parenthesisRule` : a statement in parentheses that is an expression.
* `Parse.leafRule` : a single token.
* `Parse.numberRule` : a number, the last thing to try.
-/

namespace Cascade.Parse

variable (production : Production → Parse Stmt) (statement : Parse Stmt)

/-- A statement in parentheses that is an expression, or else a string. -/
def parenthesisRule : Parse Stmt := do
  if (← kind) ≠ .openParen then production .str
  else
    let _ ← advance
    let inner : Parse Stmt := do
      let stmt ← statement
      let _ ← expect .closeParen "closing parenthesis"
      return stmt
    return .expr (← onlyExpr inner)

/-- A single token of a kind, or else another production.  A token that cannot be read is a fault
at the token behind it. -/
def leafRule (wanted : TokenKind) (read : Token → Except Fault Expr) (otherwise : Production) :
    Parse Stmt := do
  if (← kind) ≠ wanted then production otherwise
  else
    let token ← advance
    return .expr (← settle (← position) (read token) [])

/-- A number.  Nothing else is left to try, so any other token is a fault. -/
def numberRule : Parse Stmt := do
  let token ← current
  if token.kind ≠ .number then fail (.unexpectedToken token.value)
  else
    let value ← settle token.span.start (readNumber token) []
    let _ ← advance
    return .expr value

end Cascade.Parse
