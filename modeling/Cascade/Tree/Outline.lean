import Cascade.Decimal.Positional
import Cascade.Tree.Basic

/-!
# The outline of a tree

The outline of a node is an indented text with a line for every part.  The depth is the number of
tabs in front of the first line; the parts of a node stand one tab deeper.

## Main definitions

* `Expr.outline`, `Stmt.outline`, `Branch.outline` : the outline of a node at a depth.
* `Stmt.block` : statements between braces, one to a line.
* `Chain.outline` : the branches of a conditional, one below the other.
-/

namespace Cascade

/-- The white space in front of a line at a depth. -/
def tabs (depth : Nat) : String :=
  String.ofList (List.replicate depth '\t')

/-- Lines between braces.  The opening brace ends a line that is already begun. -/
def braces (depth : Nat) (lines : String) : String :=
  "\x7b\n" ++ lines ++ tabs depth ++ "\x7d"

mutual

/-- The outline of an expression. -/
def Expr.outline (depth : Nat) : Expr → String
  | .identifier name => tabs depth ++ name
  | .number value => tabs depth ++ Decimal.numberText value
  | .boolean value => tabs depth ++ (if value then "true" else "false")
  | .char value => tabs depth ++ "'" ++ String.singleton value ++ "'"
  | .str value => tabs depth ++ "\"" ++ value ++ "\""
  | .unary operator term =>
    tabs depth ++ "(\n" ++ tabs (depth + 1) ++ operator ++ "\n" ++ term.outline (depth + 1) ++
      "\n" ++ tabs depth ++ ")"
  | .binary left operator right =>
    tabs depth ++ "(\n" ++ left.outline (depth + 1) ++ "\n" ++ tabs (depth + 1) ++ operator ++
      "\n" ++ right.outline (depth + 1) ++ "\n" ++ tabs depth ++ ")"
  | .loop body fallback =>
    tabs depth ++ "loop " ++ braces depth (Stmt.lines (depth + 1) body) ++
      Stmt.fallback depth fallback
  | .whileLoop condition body fallback =>
    tabs depth ++ "while (\n" ++ condition.outline (depth + 1) ++ "\n" ++ tabs depth ++ ") " ++
      braces depth (Stmt.lines (depth + 1) body) ++ Stmt.fallback depth fallback
  | .forLoop init condition update body fallback =>
    tabs depth ++ "for (\n" ++ init.outline (depth + 1) ++ "\n" ++ tabs (depth + 1) ++ ";\n" ++
      condition.outline (depth + 1) ++ "\n" ++ tabs (depth + 1) ++ ";\n" ++
      update.outline (depth + 1) ++ "\n" ++ tabs depth ++ ") " ++
      braces depth (Stmt.lines (depth + 1) body) ++ Stmt.fallback depth fallback
  | .jump .exit => tabs depth ++ "break;"
  | .jump .next => tabs depth ++ "continue;"
  | .conditional branches => "\n".intercalate (Branch.outlines depth branches)

/-- The outline of a statement. -/
def Stmt.outline (depth : Nat) : Stmt → String
  | .expr value => value.outline depth
  | .assign name value =>
    tabs depth ++ name ++ "\n" ++ tabs depth ++ "=\n" ++ value.outline (depth + 1)
  | .declare name type isMutable value =>
    tabs depth ++ (if isMutable then "let mut" else "let") ++ "\n" ++ tabs (depth + 1) ++ name ++
      "\n" ++ tabs (depth + 1) ++ ": " ++ type.name ++ "\n" ++ value.outline (depth + 1)

/-- The outlines of statements, each with a line break behind it. -/
def Stmt.lines (depth : Nat) : List Stmt → String
  | [] => ""
  | stmt :: stmts => stmt.outline depth ++ "\n" ++ Stmt.lines depth stmts

/-- The fallback of a loop, behind its body. -/
def Stmt.fallback (depth : Nat) : Option (List Stmt) → String
  | none => ""
  | some body => " or " ++ braces depth (Stmt.lines (depth + 1) body)

/-- The outline of a branch.  The first branch is recognised by the lack of a branch before it. -/
def Branch.outline (depth : Nat) : Branch → String
  | .mk none _ body => tabs depth ++ "else " ++ braces depth (Stmt.lines (depth + 1) body)
  | .mk (some condition) before body =>
    tabs depth ++ (if before.isSome then "else if (\n" else "if (\n") ++
      condition.outline (depth + 1) ++ "\n" ++ tabs depth ++ ") " ++
      braces depth (Stmt.lines (depth + 1) body)

/-- The outlines of branches. -/
def Branch.outlines (depth : Nat) : List Branch → List String
  | [] => []
  | branch :: branches => branch.outline depth :: Branch.outlines depth branches

end

/-- The branches of a conditional, one below the other. -/
def Chain.outline (depth : Nat) (chain : Chain) : String :=
  "\n".intercalate (Branch.outlines depth chain)

/-- Statements between braces, one to a line. -/
def Stmt.block (depth : Nat) (body : List Stmt) : String :=
  braces depth (Stmt.lines (depth + 1) body)

/-- A fallback with its keyword, on a line of its own. -/
def Stmt.fallbackLine (depth : Nat) (body : List Stmt) : String :=
  tabs depth ++ "or " ++ Stmt.block depth body

end Cascade
