import Cascade.Grammar.Rule

/-!
# Grammars

A grammar gives rules to productions and knows which productions a statement may start from.  It
is built by a row of edits, and of the candidates for the start the latest one counts.

## Main definitions

* `Grammar` : rules and start candidates.
* `Grammar.register`, `Grammar.demote` : the two edits.
* `Grammar.root?` : the production that a statement starts from.
* `Edit`, `Grammar.edit` : edits as data.
* `Dialect`, `Dialect.edits` : the grammars that come ready-made.
-/

namespace Cascade

/-- Rules for productions, and the productions that a statement may start from. -/
structure Grammar where
  /-- The rule of a production, if it has one. -/
  rule? : Production → Option Rule
  /-- The candidates for the start, the latest one last. -/
  roots : List Production

namespace Grammar

/-- The grammar without a rule. -/
def empty : Grammar :=
  ⟨fun _ => none, []⟩

/-- The grammar without a candidate for the start; the rule stays. -/
def demote (g : Grammar) (p : Production) : Grammar :=
  { g with roots := g.roots.filter (· ≠ p) }

/-- The grammar with a rule for a production, in place of any earlier one.  The production becomes
the latest candidate for the start, or none at all. -/
def register (g : Grammar) (p : Production) (rule : Rule) (root : Bool) : Grammar where
  rule? q := if q = p then some rule else g.rule? q
  roots := (g.demote p).roots ++ if root then [p] else []

/-- Whether a production has a rule. -/
def isRegistered (g : Grammar) (p : Production) : Bool :=
  (g.rule? p).isSome

/-- The production that a statement starts from. -/
def root? (g : Grammar) : Option Production :=
  g.roots.getLast?

@[simp] theorem rule?_empty (p : Production) : empty.rule? p = none := rfl

@[simp] theorem rule?_demote (g : Grammar) (p q : Production) :
    (g.demote p).rule? q = g.rule? q := rfl

end Grammar

/-- A change of a grammar. -/
inductive Edit where
  /-- A rule for a production, which may become a candidate for the start. -/
  | register (production : Production) (rule : Rule) (root : Bool)
  /-- No candidate any more. -/
  | demote (production : Production)

/-- The grammar after an edit. -/
def Grammar.edit (g : Grammar) : Edit → Grammar
  | .register p rule root => g.register p rule root
  | .demote p => g.demote p

/-- The ready-made grammars. -/
inductive Dialect where
  /-- Numbers only. -/
  | core
  /-- Declarations, assignments and operators on numbers, truth values and variables. -/
  | basic
  /-- All of the basic dialect, and characters, strings, parentheses and control flow. -/
  | full
deriving DecidableEq, Repr

namespace Dialect

/-- Numbers, which start a statement as long as nothing else does. -/
def numberEdits : List Edit :=
  [.register .number .number true]

/-- The operator levels.  The operands of signs are read from the primaries, and each dialect says
where these begin. -/
def operatorEdits : List Edit :=
  [.register .unary .unary false,
   .register .multiplicative .multiplicative false,
   .register .additive .additive false,
   .register .logical .logical false,
   .register .binary .binary false]

/-- Assignments and declarations. -/
def assignmentEdits : List Edit :=
  [.register .assignment .assignment false,
   .register .declaration .declaration true]

/-- The edits that add a dialect to a grammar, in order. -/
def edits : Dialect → List Edit
  | core => numberEdits
  | basic =>
    numberEdits ++
    [.register .identifier .identifier false,
     .register .boolean .boolean false,
     .register .primary .boolean false] ++
    operatorEdits ++ assignmentEdits ++
    [.demote .number]
  | full =>
    numberEdits ++
    [.register .identifier .identifier false,
     .register .boolean .boolean false,
     .register .char .char false,
     .register .str .str false,
     .register .parenthesis .parenthesis false,
     .register .primary .parenthesis false] ++
    operatorEdits ++ assignmentEdits ++
    [.register .continueJump (.jump .next) false,
     .register .breakJump (.jump .exit) false,
     .register .loop .loop false,
     .register .whileLoop .whileLoop false,
     .register .forLoop .forLoop false,
     .register .conditional .conditional true,
     .demote .number]

end Dialect

/-- The grammar with a dialect added to it. -/
def Grammar.load (g : Grammar) (d : Dialect) : Grammar :=
  d.edits.foldl Grammar.edit g

/-- The grammar of a dialect. -/
def Dialect.grammar (d : Dialect) : Grammar :=
  Grammar.empty.load d

end Cascade
