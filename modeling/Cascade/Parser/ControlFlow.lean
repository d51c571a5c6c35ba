import Cascade.Grammar.Rule
import Cascade.Parser.Scope

/-!
# Reading control flow

The rules for conditionals, loops and jumps.  Each begins with a keyword and hands over to the next
production of the cascade if it does not find it.

## Main definitions

* `Parse.conditionalRule` : a choice between branches.
* `Parse.forRule`, `Parse.whileRule`, `Parse.loopRule` : the loops.
* `Parse.jumpRule` : a jump out of the body of a loop.
-/

namespace Cascade.Parse

variable (production : Production → Parse Stmt) (statement : Parse Stmt)

/-- The branches behind the first one, in at most `fuel` rounds. -/
def elseBranches : Nat → Chain → Parse Chain
  | 0, _ => exhausted
  | fuel + 1, chain => do
    if (← kind) ≠ .kwElse then return chain
    let _ ← advance
    if (← kind) ≠ .kwIf then
      return chain.push (← scope statement) none
    let _ ← advance
    let guard ← condition production
    let body ← scope statement
    elseBranches fuel (chain.push body (some guard))

/-- A choice between branches, or else a `for` loop. -/
def conditionalRule : Parse Stmt := do
  if (← kind) ≠ .kwIf then production .forLoop
  else
    let _ ← advance
    let guard ← condition production
    let body ← scope statement
    let first := Chain.push [] body (some guard)
    let chain ← withTokensLeft fun fuel => elseBranches production statement fuel first
    return .expr (.conditional chain)

/-- A `for` loop, or else a `while` loop. -/
def forRule : Parse Stmt := do
  if (← kind) ≠ .kwFor then production .whileLoop
  else
    let _ ← advance
    let _ ← expect .openParen "opening parenthesis"
    let init ← production .declaration
    let guard ← condition production
    let _ ← expect .semicolon "semicolon"
    let update ← production .assignment
    let _ ← expect .closeParen "closing parenthesis"
    let (body, fallback) ← loopBody statement
    return .expr (.forLoop init guard update body fallback)

/-- A `while` loop, or else an endless loop. -/
def whileRule : Parse Stmt := do
  if (← kind) ≠ .kwWhile then production .loop
  else
    let _ ← advance
    let guard ← condition production
    let (body, fallback) ← loopBody statement
    return .expr (.whileLoop guard body fallback)

/-- An endless loop, or else a jump out of one. -/
def loopRule : Parse Stmt := do
  if (← kind) ≠ .kwLoop then production .breakJump
  else
    let _ ← advance
    let (body, fallback) ← loopBody statement
    return .expr (.loop body fallback)

/-- A jump, or else the production that follows it in the cascade. -/
def jumpRule (target : Jump) : Parse Stmt := do
  if (← kind) ≠ target.keyword then production target.otherwise
  else
    let _ ← advance
    let _ ← expect .semicolon "semicolon"
    return .expr (.jump target)

end Cascade.Parse
