/-!
# Kinds of nodes

## Main definitions

* `NodeKind` : the kinds of nodes of a syntax tree, in a fixed order.
* `NodeKind.name` : the name of a kind.
-/

namespace Cascade

/-- The kinds of nodes. -/
inductive NodeKind where
  | identifier
  | number
  | boolean
  | char
  | str
  | unary
  | binary
  | assignment
  | declaration
  | fallback
  | loop
  | whileLoop
  | forLoop
  | breakJump
  | continueJump
  | branch
  | conditional
deriving DecidableEq, Repr

namespace NodeKind

/-- Every kind, in order. -/
def all : List NodeKind :=
  [identifier, number, boolean, char, str, unary, binary, assignment, declaration, fallback, loop,
   whileLoop, forLoop, breakJump, continueJump, branch, conditional]

/-- The name of a kind. -/
def name : NodeKind → String
  | identifier => "Identifier"
  | number => "NumberExpression"
  | boolean => "BooleanExpression"
  | char => "CharExpression"
  | str => "StrExpression"
  | unary => "UnaryExpression"
  | binary => "BinaryExpression"
  | assignment => "AssignationExpression"
  | declaration => "DeclarationExpression"
  | fallback => "OrExpression"
  | loop => "LoopExpression"
  | whileLoop => "WhileExpression"
  | forLoop => "ForExpression"
  | breakJump => "BreakExpression"
  | continueJump => "ContinueExpression"
  | branch => "ConditionnalExpression"
  | conditional => "ConditionnalStructure"

end NodeKind

end Cascade
