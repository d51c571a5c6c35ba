/-!
# Productions

The levels of the grammar.  A production is a name only; which rule it stands for is decided by a
grammar.

## Main definitions

* `Production` : the productions, in a fixed order.
* `Production.name` : the name of a production, which is that of the node it builds.
-/

namespace Cascade

/-- The productions of the cascade, from statements down to the primaries. -/
inductive Production where
  | conditional
  | forLoop
  | whileLoop
  | loop
  | breakJump
  | continueJump
  | declaration
  | assignment
  /-- The entry to the operator levels. -/
  | binary
  | logical
  | additive
  | multiplicative
  | unary
  /-- The entry to the primaries. -/
  | primary
  | parenthesis
  | str
  | char
  | boolean
  | identifier
  | number
deriving DecidableEq, Repr

namespace Production

/-- Every production, in order. -/
def all : List Production :=
  [conditional, forLoop, whileLoop, loop, breakJump, continueJump, declaration, assignment, binary,
   logical, additive, multiplicative, unary, primary, parenthesis, str, char, boolean, identifier,
   number]

/-- The name of a production. -/
def name : Production → String
  | conditional => "ConditionnalStructure"
  | forLoop => "ForExpression"
  | whileLoop => "WhileExpression"
  | loop => "LoopExpression"
  | breakJump => "BreakExpression"
  | continueJump => "ContinueExpression"
  | declaration => "DeclarationExpression"
  | assignment => "AssignationExpression"
  | binary => "BinaryExpression"
  | logical => "LogicalExpression"
  | additive => "AdditiveExpression"
  | multiplicative => "MultiplicativeExpression"
  | unary => "UnaryExpression"
  | primary => "PrimaryExpression"
  | parenthesis => "ParenthesisExpression"
  | str => "StrExpression"
  | char => "CharExpression"
  | boolean => "BooleanExpression"
  | identifier => "Identifier"
  | number => "NumberExpression"

/-- The production with the given name. -/
def ofName? (name : String) : Option Production :=
  all.find? fun production => production.name == name

theorem mem_all (production : Production) : production ∈ all := by
  cases production <;> decide

end Production

end Cascade
