import Mathlib.Tactic.Common
import Cascade.Proofs.Faults
import Cascade.Proofs.Runs

/-!
# Every value in a tree is folded

Folding does not look into loops and conditionals, and some nodes are put together without being
folded at all.  Nevertheless nothing can be folded any more in a tree that comes from a parser: not
in a statement, not in the value of a declaration or an assignment, and not in a condition, however
deep they are nested in the bodies of loops and conditionals or in operands.  So whatever is folded
once more, after it was read or while it is checked, stays as it is.

## Main definitions

* `Expr.innerValues`, `Stmt.values` : the expressions in a tree that stand for a value.
* `Parse.FoldsAll` : all values are folded in what a step gives.

## Main results

* `Expr.innerValues_of_fold` : folding does not touch the values inside.
* `Expr.foldTraced_of_isFolded` : folding a folded expression does nothing and tells nothing.
* `Parse.foldsAll_rule` : a rule gives folded values if the productions inside do.
* `Dialect.parse_folded` : all values in a program are folded, and folding them again does nothing.
-/

namespace Cascade

/-! ### Values in a tree -/

mutual

/-- The expressions that stand for a value inside an expression, in the statements and conditions of
its loops and conditionals. -/
def Expr.innerValues : Expr → List Expr
  | .unary _ term => term.innerValues
  | .binary left _ right => left.innerValues ++ right.innerValues
  | .loop body fallback => Stmt.bodyValues body ++ Stmt.fallbackValues fallback
  | .whileLoop condition body fallback =>
    condition :: condition.innerValues ++ (Stmt.bodyValues body ++ Stmt.fallbackValues fallback)
  | .forLoop init condition update body fallback =>
    init.values ++ (condition :: condition.innerValues ++ (update.values ++
      (Stmt.bodyValues body ++ Stmt.fallbackValues fallback)))
  | .conditional branches => Branch.chainValues branches
  | _ => []

/-- The expressions that stand for a value in a statement: its own one, and those inside. -/
def Stmt.values : Stmt → List Expr
  | .expr value => value :: value.innerValues
  | .assign _ value => value :: value.innerValues
  | .declare _ _ _ value => value :: value.innerValues

/-- The expressions that stand for a value in a row of statements. -/
def Stmt.bodyValues : List Stmt → List Expr
  | [] => []
  | stmt :: stmts => stmt.values ++ Stmt.bodyValues stmts

/-- The expressions that stand for a value in the fallback of a loop. -/
def Stmt.fallbackValues : Option (List Stmt) → List Expr
  | none => []
  | some body => Stmt.bodyValues body

/-- The expressions that stand for a value in a branch: its condition, and those inside. -/
def Branch.values : Branch → List Expr
  | .mk none _ body => Stmt.bodyValues body
  | .mk (some condition) _ body => condition :: condition.innerValues ++ Stmt.bodyValues body

/-- The expressions that stand for a value in the branches of a conditional. -/
def Branch.chainValues : List Branch → List Expr
  | [] => []
  | branch :: branches => branch.values ++ Branch.chainValues branches

end

theorem Branch.chainValues_append (chain chain' : List Branch) :
    chainValues (chain ++ chain') = chainValues chain ++ chainValues chain' := by
  induction chain with
  | nil => simp [chainValues]
  | cons branch chain ih => simp [chainValues, ih]

/-- The values of a new branch come behind those of the branches before it. -/
theorem Chain.chainValues_push (chain : Chain) (body : List Stmt) (condition : Option Expr) :
    Branch.chainValues (chain.push body condition) =
      Branch.chainValues chain ++ Branch.values (.mk condition none body) := by
  rw [Chain.push, Branch.chainValues_append]
  cases condition <;> simp [Branch.chainValues, Branch.values]

/-- An operation with an unresolved operand is kept, and nothing is told of it. -/
theorem combine_of_isUnresolved {left right : Expr} (operator : String)
    (h : left.isUnresolved = true ∨ right.isUnresolved = true) :
    combine left operator right = pure (.binary left operator right) := by
  have hevents : (combine left operator right).events = [] := by
    unfold combine
    split
    · rcases h with h | h <;> cases h
    · rfl
  have hresult := result_combine_of_isUnresolved operator h
  calc combine left operator right
      = ⟨(combine left operator right).result, (combine left operator right).events⟩ := rfl
    _ = pure (.binary left operator right) := by rw [hresult, hevents]; rfl

namespace Expr

theorem innerValues_of_isLiteral {e : Expr} (h : e.isLiteral = true) : e.innerValues = [] := by
  cases e <;> simp_all [isLiteral, innerValues]

theorem innerValues_applyUnary (operator : String) (term : Expr) :
    (applyUnary operator term).innerValues = term.innerValues := by
  by_cases hkept : operator = "!" → ∀ value, term ≠ boolean value
  · rw [applyUnary_eq_self_iff.2 hkept, innerValues]
  · push Not at hkept
    obtain ⟨rfl, value, rfl⟩ := hkept
    simp [applyUnary, innerValues]

/-- Folding does not touch the values inside. -/
theorem innerValues_of_fold {e value : Expr} (h : e.fold = .ok value) :
    value.innerValues = e.innerValues := by
  refine fold_induction (motive := fun e value => value.innerValues = e.innerValues) ?_ ?_ ?_ ?_ h
  · exact fun e _ => rfl
  · intro operator term t ht
    rw [innerValues_applyUnary, ht, innerValues]
  · intro left operator right l r value hl hr hll hrl hv _
    rw [innerValues_of_isLiteral hv, innerValues, ← hl, ← hr, innerValues_of_isLiteral hll,
      innerValues_of_isLiteral hrl, List.append_nil]
  · intro left operator right l r hl hr _
    rw [innerValues, innerValues, hl, hr]

/-- All values are folded in a folded expression if they are inside of what was folded. -/
theorem isFolded_values_of_fold {e value : Expr} (hfold : e.fold = .ok value)
    (hinner : ∀ v ∈ e.innerValues, v.IsFolded) : ∀ v ∈ value :: value.innerValues, v.IsFolded := by
  rw [List.forall_mem_cons, innerValues_of_fold hfold]
  exact ⟨isFolded_of_fold hfold, hinner⟩

/-- Folding a folded expression does nothing and tells nothing. -/
theorem foldTraced_of_isFolded {e : Expr} (h : e.IsFolded) : e.foldTraced = pure e := by
  induction e using skeleton_induction with
  | leaf e he => cases e <;> simp_all [isContainer, foldTraced]
  | unary operator term ih =>
    rw [foldTraced, ih h.1, ← applyUnary_eq_self_iff.2 h.2]
    rfl
  | binary left operator right ihl ihr =>
    obtain ⟨hl, hr, hunresolved⟩ := h
    rw [foldTraced, ihl hl, ihr hr, ← combine_of_isUnresolved operator hunresolved]
    rfl

end Expr

/-! ### What the rules give -/

namespace Parse

/-- Whether all values are folded in what a step gives, for a result with the given values. -/
def FoldsAll {α : Type} (values : α → List Expr) (p : Parse α) : Prop :=
  ∀ s a s', p.Gives s a s' → ∀ v ∈ values a, v.IsFolded

/-- Folding a folded expression once more is no step at all. -/
theorem fold_eq_pure {e : Expr} (h : e.IsFolded) : fold e = pure e := by
  rw [fold, Expr.foldTraced_of_isFolded h]
  rfl

variable {production : Production → Parse Stmt} {statement : Parse Stmt}

section Parts

variable (hproduction : ∀ p, (production p).FoldsAll Stmt.values)
  (hstatement : statement.FoldsAll Stmt.values)

include hproduction in
/-- The values inside an expression that is read are folded, and they stay so when it is folded. -/
theorem isFolded_of_read {p : Production} {s s' : State} {e value : Expr}
    (he : (production p).Gives s (.expr e) s') (hfold : e.fold = .ok value) :
    ∀ v ∈ value :: value.innerValues, v.IsFolded := by
  obtain ⟨-, hinner⟩ := List.forall_mem_cons.1 (hproduction _ _ _ _ he)
  exact Expr.isFolded_values_of_fold hfold hinner

include hproduction in
theorem foldsAll_condition :
    (condition production).FoldsAll fun guard => guard :: guard.innerValues := by
  intro s guard s' h
  obtain ⟨e, he, hfold⟩ := gives_condition.1 h
  exact isFolded_of_read hproduction he hfold

include hstatement

theorem isFolded_of_givesAll {s s' : State} {body : List Stmt} (h : statement.GivesAll s body s') :
    ∀ v ∈ Stmt.bodyValues body, v.IsFolded := by
  induction h with
  | nil s => exact fun v hv => absurd hv List.not_mem_nil
  | cons first rest ih => exact List.forall_mem_append.2 ⟨hstatement _ _ _ first, ih⟩

theorem foldsAll_scope : (scope statement).FoldsAll Stmt.bodyValues := by
  intro s body s' h
  obtain ⟨t, -, hbody, -⟩ := givesAll_of_scope h
  exact isFolded_of_givesAll hstatement hbody

theorem foldsAll_loopBody : (loopBody statement).FoldsAll
    fun loop => Stmt.bodyValues loop.1 ++ Stmt.fallbackValues loop.2 := by
  rintro s ⟨body, fallback⟩ s' h
  obtain ⟨t, hbody, hfallback⟩ := gives_loopBody.1 h
  refine List.forall_mem_append.2 ⟨foldsAll_scope hstatement _ _ _ hbody, ?_⟩
  rcases hfallback with ⟨-, other, hother, rfl⟩ | ⟨-, rfl, -⟩
  · have hvalues := foldsAll_scope hstatement _ _ _ hother
    exact hvalues
  · exact fun v hv => absurd hv List.not_mem_nil

include hproduction in
/-- A condition and a body make a branch. -/
theorem isFolded_of_branch {s t u : State} {guard : Expr} {body : List Stmt}
    (hguard : (condition production).Gives s guard t) (hbody : (scope statement).Gives t body u) :
    ∀ v ∈ Branch.values (.mk (some guard) none body), v.IsFolded :=
  List.forall_mem_append.2
    ⟨foldsAll_condition hproduction _ _ _ hguard, foldsAll_scope hstatement _ _ _ hbody⟩

include hproduction in
/-- Every branch behind the first one adds folded values to those of the branches so far. -/
theorem isFolded_of_elseBranches {fuel : Nat} {chain chain' : Chain} {s s' : State}
    (h : (elseBranches production statement fuel chain).Gives s chain' s')
    (hchain : ∀ v ∈ Branch.chainValues chain, v.IsFolded) :
    ∀ v ∈ Branch.chainValues chain', v.IsFolded := by
  induction fuel generalizing chain s with
  | zero => exact absurd h not_gives_exhausted
  | succ fuel ih =>
    rcases gives_elseBranches h with ⟨-, rfl, -⟩ | ⟨-, -, body, hbody, rfl⟩ |
      ⟨-, -, guard, t, body, u, hguard, hbody, hrest⟩
    · exact hchain
    · rw [Chain.chainValues_push]
      exact List.forall_mem_append.2 ⟨hchain, foldsAll_scope hstatement _ _ _ hbody⟩
    · refine ih hrest ?_
      rw [Chain.chainValues_push]
      exact List.forall_mem_append.2
        ⟨hchain, isFolded_of_branch hproduction hstatement hguard hbody⟩

end Parts

/-! One lemma for each rule that reads more than a single token. -/

section Rules

variable (hproduction : ∀ p, (production p).FoldsAll Stmt.values)
  (hstatement : statement.FoldsAll Stmt.values)

include hproduction

theorem foldsAll_declarationRule : (declarationRule production).FoldsAll Stmt.values := by
  intro s stmt s' h
  rcases gives_declarationRule h with ⟨-, h⟩ | ⟨-, isMutable, t, type, e, u, value, -, -, -, -, -,
    -, he, hfold, -, -, rfl, -⟩
  · exact hproduction _ _ _ _ h
  · rw [Symbols.after_checkValue (Expr.isFolded_of_fold hfold)]
    exact isFolded_of_read hproduction he hfold

theorem foldsAll_assignmentRule : (assignmentRule production).FoldsAll Stmt.values := by
  intro s stmt s' h
  obtain ⟨target, t, htarget, ⟨-, rfl⟩ | ⟨-, name, e, u, value, -, he, hfold, -, -, rfl⟩⟩ :=
    gives_assignmentRule h
  · exact hproduction _ _ _ _ htarget
  · rw [Symbols.after_checkAssignment (Expr.isFolded_of_fold hfold)]
    exact isFolded_of_read hproduction he hfold

theorem foldsAll_levelRule (whole operand : Production) (operators : List String) :
    (levelRule production whole operand operators).FoldsAll Stmt.values := by
  intro s stmt s' h
  obtain ⟨left, t, hleft, ⟨-, rfl, -⟩ | ⟨-, right, value, hright, hfold, rfl⟩⟩ := gives_levelRule h
  · exact hproduction _ _ _ _ hleft
  · obtain ⟨-, hleft⟩ := List.forall_mem_cons.1 (hproduction _ _ _ _ hleft)
    obtain ⟨-, hright⟩ := List.forall_mem_cons.1 (hproduction _ _ _ _ hright)
    exact Expr.isFolded_values_of_fold hfold (List.forall_mem_append.2 ⟨hleft, hright⟩)

/-- A negative number is not folded after it was put together, and neither is a difference from
zero. -/
theorem foldsAll_unaryRule : (unaryRule production).FoldsAll Stmt.values := by
  intro s stmt s' h
  rcases gives_unaryRule h with ⟨-, -, term, value, hterm, hfold, rfl⟩ |
    ⟨-, e, term, he, hfold, hneg⟩ | ⟨-, -, h⟩
  · obtain ⟨-, hinner⟩ := List.forall_mem_cons.1 (hproduction _ _ _ _ hterm)
    exact Expr.isFolded_values_of_fold hfold hinner
  · obtain ⟨hterm, hinner⟩ := List.forall_mem_cons.1 (isFolded_of_read hproduction he hfold)
    rcases gives_negated hneg with ⟨-, ⟨x, rfl, rfl⟩ | ⟨hunresolved, rfl⟩⟩
    · exact List.forall_mem_cons.2 ⟨trivial, hinner⟩
    · exact List.forall_mem_cons.2 ⟨⟨trivial, hterm, .inr hunresolved⟩, hinner⟩
  · exact hproduction _ _ _ _ h

theorem foldsAll_jumpRule (target : Jump) :
    (jumpRule production target).FoldsAll Stmt.values := by
  intro s stmt s' h
  rcases gives_jumpRule h with ⟨-, h⟩ | ⟨-, -, rfl, -⟩
  · exact hproduction _ _ _ _ h
  · exact List.forall_mem_singleton.2 trivial

include hstatement

theorem foldsAll_conditionalRule :
    (conditionalRule production statement).FoldsAll Stmt.values := by
  intro s stmt s' h
  rcases gives_conditionalRule h with ⟨-, h⟩ | ⟨-, guard, t, body, u, fuel, chain, hguard, hbody,
    hchain, rfl⟩
  · exact hproduction _ _ _ _ h
  · refine List.forall_mem_cons.2 ⟨trivial, ?_⟩
    refine isFolded_of_elseBranches hproduction hstatement hchain ?_
    rw [Chain.chainValues_push]
    exact isFolded_of_branch hproduction hstatement hguard hbody

theorem foldsAll_forRule : (forRule production statement).FoldsAll Stmt.values := by
  intro s stmt s' h
  rcases gives_forRule h with ⟨-, h⟩ | ⟨-, -, init, t, guard, u, update, v, body, fallback, hinit,
    hguard, -, hupdate, -, hbody, rfl⟩
  · exact hproduction _ _ _ _ h
  · have hloop := foldsAll_loopBody hstatement _ _ _ hbody
    have hupdate := List.forall_mem_append.2 ⟨hproduction _ _ _ _ hupdate, hloop⟩
    have hguard := List.forall_mem_append.2 ⟨foldsAll_condition hproduction _ _ _ hguard, hupdate⟩
    exact List.forall_mem_cons.2
      ⟨trivial, List.forall_mem_append.2 ⟨hproduction _ _ _ _ hinit, hguard⟩⟩

theorem foldsAll_whileRule : (whileRule production statement).FoldsAll Stmt.values := by
  intro s stmt s' h
  rcases gives_whileRule h with ⟨-, h⟩ | ⟨-, guard, t, body, fallback, hguard, hbody, rfl⟩
  · exact hproduction _ _ _ _ h
  · have hloop := foldsAll_loopBody hstatement _ _ _ hbody
    have hguard := foldsAll_condition hproduction _ _ _ hguard
    exact List.forall_mem_cons.2 ⟨trivial, List.forall_mem_append.2 ⟨hguard, hloop⟩⟩

theorem foldsAll_loopRule : (loopRule production statement).FoldsAll Stmt.values := by
  intro s stmt s' h
  rcases gives_loopRule h with ⟨-, h⟩ | ⟨-, body, fallback, hbody, rfl⟩
  · exact hproduction _ _ _ _ h
  · have hloop := foldsAll_loopBody hstatement _ _ _ hbody
    exact List.forall_mem_cons.2 ⟨trivial, hloop⟩

theorem foldsAll_parenthesisRule :
    (parenthesisRule production statement).FoldsAll Stmt.values := by
  intro s stmt s' h
  rcases gives_parenthesisRule h with ⟨-, h⟩ | ⟨-, e, t, he, -, rfl, -⟩
  · exact hproduction _ _ _ _ h
  · exact hstatement _ _ _ he

end Rules

/-- All values are folded in what a rule of a dialect gives, provided this is so for the productions
and statements inside. -/
theorem foldsAll_rule {d : Dialect} {p : Production} {rule : Rule}
    (hrule : d.grammar.rule? p = some rule)
    (hproduction : ∀ p, (production p).FoldsAll Stmt.values)
    (hstatement : statement.FoldsAll Stmt.values) :
    (rule.parse production statement).FoldsAll Stmt.values := by
  cases rule with
  | conditional => exact foldsAll_conditionalRule hproduction hstatement
  | forLoop => exact foldsAll_forRule hproduction hstatement
  | whileLoop => exact foldsAll_whileRule hproduction hstatement
  | loop => exact foldsAll_loopRule hproduction hstatement
  | jump target => exact foldsAll_jumpRule hproduction target
  | declaration => exact foldsAll_declarationRule hproduction
  | assignment => exact foldsAll_assignmentRule hproduction
  | forward target => exact hproduction target
  | level whole operand operators => exact foldsAll_levelRule hproduction whole operand operators
  | unary => exact foldsAll_unaryRule hproduction
  | parenthesis => exact foldsAll_parenthesisRule hproduction hstatement
  | leaf kind read otherwise =>
    intro s stmt s' h
    rcases gives_leafRule h with ⟨-, h⟩ | ⟨-, e, hread, rfl, -⟩
    · exact hproduction _ _ _ _ h
    · rcases Dialect.plain_of_leaf hrule hread with ⟨-, rfl⟩ | hliteral
      · exact List.forall_mem_singleton.2 trivial
      · rw [Stmt.values, Expr.innerValues_of_isLiteral hliteral, List.forall_mem_singleton]
        exact Expr.isFolded_of_not_isContainer (Expr.isContainer_of_isLiteral hliteral)
  | number =>
    intro s stmt s' h
    obtain ⟨-, e, hread, rfl, -⟩ := gives_numberRule h
    obtain ⟨value, -, rfl⟩ := exists_of_readNumber hread
    exact List.forall_mem_singleton.2 trivial

end Parse

/-! ### Programs -/

namespace Dialect

open Parse

theorem foldsAll_production (d : Dialect) (p : Production) :
    (d.grammar.production p).FoldsAll Stmt.values := by
  intro s stmt s' h
  refine d.grammar.gives_induction (motive := fun _ stmt _ => ∀ v ∈ stmt.values, v.IsFolded) ?_ h
  intro production statement hproduction hstatement p rule hrule
  exact foldsAll_rule hrule hproduction hstatement

theorem foldsAll_statement (d : Dialect) : d.grammar.statement.FoldsAll Stmt.values := by
  intro s stmt s' h
  obtain ⟨root, hroot⟩ := Grammar.gives_start h
  exact d.foldsAll_production root s stmt s' hroot

/-- An expression that is read is folded. -/
theorem isFolded_of_expression {d : Dialect} {p : Production} {s s' : State} {e : Expr}
    (h : (d.grammar.expression p).Gives s e s') : e.IsFolded := by
  have he := d.foldsAll_production p _ _ _ (gives_expression.1 h)
  exact (List.forall_mem_cons.1 he).1

/-- Nothing is left to fold in a program that is accepted: not in its statements, and not in the
statements and conditions of its loops and conditionals, wherever these stand.  To fold what was
read as a value once more is no step at all, and a check of it leaves it as it is and has no fault
but its own. -/
theorem parse_folded (d : Dialect) :
    (∀ tokens file program, (d.parse tokens file).result = .ok program →
      ∀ e ∈ Stmt.bodyValues program, e.fold = .ok e) ∧
    (∀ (α : Type) (f : Expr → Parse α),
      (d.grammar.expression .binary >>= fun e => Parse.fold e >>= f) =
        d.grammar.expression .binary >>= f) ∧
    ∀ s e s', (d.grammar.expression .binary).Gives s e s' → ∀ symbols : Symbols,
      (∀ type, (symbols.checkValue type e).after = e ∧
        ∀ fault, (symbols.checkValue type e).outcome = .error fault → fault.stage = .checking) ∧
      ∀ name, (symbols.checkAssignment name e).after = e ∧
        ∀ fault, (symbols.checkAssignment name e).outcome = .error fault →
          fault.stage = .checking := by
  refine ⟨fun tokens file program hprogram e he => ?_, fun α f => ?_, fun s e s' h symbols => ?_⟩
  · obtain ⟨hall, -⟩ := givesAll_of_many (s := State.ofTokens tokens file) ⟨hprogram, rfl⟩
    exact Expr.fold_of_isFolded (isFolded_of_givesAll d.foldsAll_statement hall e he)
  · ext s
    cases hresult : ((d.grammar.expression .binary).run s).result with
    | error failure => rw [run_bind_of_error hresult, run_bind_of_error hresult]
    | ok e =>
      have hfolded : e.IsFolded := isFolded_of_expression ⟨hresult, rfl⟩
      rw [run_bind_of_ok hresult, run_bind_of_ok hresult, fold_eq_pure hfolded, pure_bind]
  · have hfolded := isFolded_of_expression h
    exact ⟨fun type => ⟨Symbols.after_checkValue hfolded symbols type,
        fun fault => Symbols.stage_of_checkValue hfolded⟩,
      fun name => ⟨Symbols.after_checkAssignment hfolded symbols name,
        fun fault => Symbols.stage_of_checkAssignment hfolded⟩⟩

/-- A loop with an operation in its body, as an operand. -/
def operandTokens : List Token :=
  [.bare .unaryOperator "!", .bare .openParen "(", .bare .kwLoop "loop", .bare .openCurly "\x7b",
   .bare .bool "true", .bare .binaryOperator "&&", .bare .bool "false", .bare .semicolon ";",
   .bare .closeCurly "\x7d", .bare .closeParen ")", .bare .semicolon ";"]

set_option maxRecDepth 2000 in
/-- The operation in the loop is carried out, and the one on the loop is kept. -/
theorem parse_folded_operand :
    ∃ program, (full.parse operandTokens "").result = .ok program ∧
      Stmt.bodyValues program =
        [.unary "!" (.loop [.expr (.boolean false)] none), .boolean false] ∧
      ∀ e ∈ Stmt.bodyValues program, e.fold = .ok e := by
  have hresult : (full.parse operandTokens "").result =
      .ok [.expr (.unary "!" (.loop [.expr (.boolean false)] none))] := by
    cbv
  refine ⟨_, hresult, ?_, (parse_folded full).1 _ _ _ hresult⟩
  simp [Stmt.bodyValues, Stmt.values, Expr.innerValues, Stmt.fallbackValues]

end Dialect

end Cascade
