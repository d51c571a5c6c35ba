import Cascade.Grammar.Basic
import Cascade.Parser.Assignment
import Cascade.Parser.ControlFlow
import Cascade.Parser.Operators
import Cascade.Parser.Primary
import Cascade.Token.Lexer

/-!
# Parsing with a grammar

A grammar reads a production by its rule, which calls for other productions in turn.  A grammar can
be made to go round in circles, so the depth of the calls is bounded: between two tokens no
production can be entered twice without coming back to where it was.

## Main definitions

* `Rule.parse` : the step of a rule.
* `Grammar.parseWithin` : a production, with calls up to a given depth.
* `Grammar.production`, `Grammar.statement`, `Grammar.program` : parsing with a grammar.
* `State.ofTokens` : the state in which parsing begins.
* `Dialect.parse` : parsing tokens with a dialect.
-/

namespace Cascade

/-- The state at the first of some tokens, with no variable declared. -/
def State.ofTokens (tokens : List Token) (file : String) : State :=
  ⟨Cursor.ofTokens tokens file, Symbols.empty⟩

/-- How deep productions can be nested: each production once at every token that is left. -/
def State.depthBound (s : State) : Nat :=
  Production.all.length * s.cursor.remaining.length

/-- The step of a rule, given the steps of the productions and of a statement. -/
def Rule.parse (production : Production → Parse Stmt) (statement : Parse Stmt) :
    Rule → Parse Stmt
  | .conditional => Parse.conditionalRule production statement
  | .forLoop => Parse.forRule production statement
  | .whileLoop => Parse.whileRule production statement
  | .loop => Parse.loopRule production statement
  | .jump target => Parse.jumpRule production target
  | .declaration => Parse.declarationRule production
  | .assignment => Parse.assignmentRule production
  | .forward target => production target
  | .level whole operand operators => Parse.levelRule production whole operand operators
  | .unary => Parse.unaryRule production
  | .parenthesis => Parse.parenthesisRule production statement
  | .leaf kind read otherwise => Parse.leafRule production kind read otherwise
  | .number => Parse.numberRule

namespace Grammar

/-- The production that a statement starts from, read in the given way. -/
def start (g : Grammar) (production : Production → Parse Stmt) : Parse Stmt :=
  match g.root? with
  | none => Parse.fail .noRootProduction
  | some root => production root

/-- A production by its rule, with calls up to the given depth. -/
def parseWithin (g : Grammar) : Nat → Production → Parse Stmt
  | 0, _ => Parse.exhausted
  | depth + 1, p =>
    match g.rule? p with
    | none => Parse.fail (.unregisteredProduction p.name)
    | some rule => do
      Parse.tell (.entered p (← Parse.current))
      rule.parse (g.parseWithin depth) (g.start (g.parseWithin depth))

/-- A production by its rule. -/
def production (g : Grammar) (p : Production) : Parse Stmt := fun s =>
  g.parseWithin s.depthBound p s

theorem run_production (g : Grammar) (p : Production) (s : State) :
    (g.production p).run s = (g.parseWithin s.depthBound p).run s := by
  simp only [production, Parse.run]

/-- A statement, from the production that the grammar starts from. -/
def statement (g : Grammar) : Parse Stmt :=
  g.start g.production

/-- A production where only an expression is acceptable. -/
def expression (g : Grammar) (p : Production) : Parse Expr :=
  Parse.expression g.production p

/-- Statements between braces. -/
def scope (g : Grammar) : Parse (List Stmt) :=
  Parse.scope g.statement

/-- Statements up to the end mark. -/
def program (g : Grammar) : Parse (List Stmt) :=
  Parse.many (fun kind => kind = .eof) g.statement

end Grammar

/-- Parses tokens with a dialect.  The name of the source is needed only if there is no token to
tell it. -/
def Dialect.parse (d : Dialect) (tokens : List Token) (file : String) : Outcome (List Stmt) :=
  d.grammar.program.run (State.ofTokens tokens file)

/-- Reads a source with a dialect, from its text to its statements. -/
def Dialect.read (d : Dialect) (source : String) (file : String) :
    Except Report (Outcome (List Stmt)) :=
  (tokenize source file).map fun tokens => d.parse tokens file

end Cascade
