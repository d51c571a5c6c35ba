import Mathlib
import Cascade.Proofs.Runs

/-!
# Checking a tree again

The declarations and assignments of a tree, in the order in which they stand in the source, can be
checked once more, each against the variables that the ones before it have declared.  If the tree
comes from a parser, this never fails and changes nothing, and it ends with the variables that the
parser has declared.  So a tree holds all that the table of variables was built from: folding never
throws away a declaration, wherever it is nested.

## Main definitions

* `Expr.bindings`, `Stmt.bindings` : the declarations and assignments in a tree, in source order.
* `Symbols.replay` : checking them again.
* `Symbols.Replays` : checking them again succeeds and changes nothing.

## Main results

* `Expr.bindings_of_fold` : folding keeps declarations and assignments.
* `Parse.records_rule` : what a rule reads is replayed to the variables that it leaves.
* `Dialect.replays_of_parse` : a program that is accepted is replayed from an empty table.
* `Dialect.parse_replays` : every program that is accepted is replayed to its own variables.
-/

namespace Cascade

/-! ### Declarations and assignments of a tree -/

mutual

/-- The declarations and assignments in an expression, in source order. -/
def Expr.bindings : Expr → List Stmt
  | .unary _ term => term.bindings
  | .binary left _ right => left.bindings ++ right.bindings
  | .loop body fallback => Stmt.bodyBindings body ++ Stmt.fallbackBindings fallback
  | .whileLoop condition body fallback =>
    condition.bindings ++ (Stmt.bodyBindings body ++ Stmt.fallbackBindings fallback)
  | .forLoop init condition update body fallback =>
    init.bindings ++ (condition.bindings ++ (update.bindings ++
      (Stmt.bodyBindings body ++ Stmt.fallbackBindings fallback)))
  | .conditional branches => Branch.chainBindings branches
  | _ => []

/-- The declarations and assignments in a statement, in source order.  Those in its value come
before the statement itself. -/
def Stmt.bindings : Stmt → List Stmt
  | .expr value => value.bindings
  | .assign name value => value.bindings ++ [.assign name value]
  | .declare name type isMutable value => value.bindings ++ [.declare name type isMutable value]

/-- The declarations and assignments in a row of statements. -/
def Stmt.bodyBindings : List Stmt → List Stmt
  | [] => []
  | stmt :: stmts => stmt.bindings ++ Stmt.bodyBindings stmts

/-- The declarations and assignments in the fallback of a loop. -/
def Stmt.fallbackBindings : Option (List Stmt) → List Stmt
  | none => []
  | some body => Stmt.bodyBindings body

/-- The declarations and assignments in a branch. -/
def Branch.bindings : Branch → List Stmt
  | .mk none _ body => Stmt.bodyBindings body
  | .mk (some condition) _ body => condition.bindings ++ Stmt.bodyBindings body

/-- The declarations and assignments in the branches of a conditional. -/
def Branch.chainBindings : List Branch → List Stmt
  | [] => []
  | branch :: branches => branch.bindings ++ Branch.chainBindings branches

end

theorem Branch.chainBindings_append (chain chain' : List Branch) :
    chainBindings (chain ++ chain') = chainBindings chain ++ chainBindings chain' := by
  induction chain with
  | nil => simp [chainBindings]
  | cons branch chain ih => simp [chainBindings, ih]

/-- A branch with a condition comes behind the ones before it. -/
theorem Chain.chainBindings_push_some (chain : Chain) (body : List Stmt) (condition : Expr) :
    Branch.chainBindings (chain.push body (some condition)) =
      Branch.chainBindings chain ++ (condition.bindings ++ Stmt.bodyBindings body) := by
  simp [Chain.push, Branch.chainBindings_append, Branch.chainBindings, Branch.bindings]

/-- A last resort comes behind the branches before it. -/
theorem Chain.chainBindings_push_none (chain : Chain) (body : List Stmt) :
    Branch.chainBindings (chain.push body none) =
      Branch.chainBindings chain ++ Stmt.bodyBindings body := by
  simp [Chain.push, Branch.chainBindings_append, Branch.chainBindings, Branch.bindings]

namespace Expr

theorem bindings_of_isLiteral {e : Expr} (h : e.isLiteral = true) : e.bindings = [] := by
  cases e <;> simp_all [isLiteral, bindings]

@[simp] theorem bindings_applyUnary (operator : String) (term : Expr) :
    (applyUnary operator term).bindings = term.bindings := by
  by_cases hkept : operator = "!" → ∀ value, term ≠ boolean value
  · rw [applyUnary_eq_self_iff.2 hkept, bindings]
  · push Not at hkept
    obtain ⟨rfl, value, rfl⟩ := hkept
    simp [applyUnary, bindings]

/-- Folding keeps every declaration and every assignment, nested as deep as it may be. -/
theorem bindings_of_fold {e value : Expr} (h : e.fold = .ok value) :
    value.bindings = e.bindings := by
  refine fold_induction (motive := fun e value => value.bindings = e.bindings) ?_ ?_ ?_ ?_ h
  · exact fun e _ => rfl
  · intro operator term t ht
    rw [bindings_applyUnary, ht, bindings]
  · -- Literals have nothing to lose.
    intro left operator right l r value hl hr hll hrl hv _
    rw [bindings_of_isLiteral hv, bindings, ← hl, ← hr, bindings_of_isLiteral hll,
      bindings_of_isLiteral hrl, List.append_nil]
  · intro left operator right l r hl hr _
    rw [bindings, bindings, hl, hr]

end Expr

namespace Symbols

/-! ### Checking again -/

/-- Checks a declaration or an assignment again, and declares the variable of a declaration.  The
statement is given back as the check leaves it. -/
def recheck (symbols : Symbols) : Stmt → Except Fault (Stmt × Symbols)
  | .expr value => .ok (.expr value, symbols)
  | .assign name value =>
    let checked := symbols.checkAssignment name value
    checked.outcome.map fun _ => (.assign name checked.after, symbols)
  | .declare name type isMutable value =>
    let checked := symbols.checkValue type value
    checked.outcome.map fun _ =>
      (.declare name type isMutable checked.after, symbols.declare name type)

/-- Checks declarations and assignments again, one after the other. -/
def replay : Symbols → List Stmt → Except Fault (List Stmt × Symbols)
  | symbols, [] => .ok ([], symbols)
  | symbols, stmt :: stmts => do
    let (stmt, symbols) ← symbols.recheck stmt
    let (stmts, symbols) ← symbols.replay stmts
    return (stmt :: stmts, symbols)

/-- Whether checking declarations and assignments again succeeds, changes none of them, and ends
with the given variables. -/
def Replays (symbols : Symbols) (stmts : List Stmt) (symbols' : Symbols) : Prop :=
  symbols.replay stmts = .ok (stmts, symbols')

theorem replays_nil {symbols symbols' : Symbols} :
    symbols.Replays [] symbols' ↔ symbols' = symbols := by
  simp only [Replays, replay, Except.ok.injEq, Prod.mk.injEq, true_and]
  exact eq_comm

/-- A row is replayed by replaying its first member and then the others. -/
theorem replays_cons {symbols symbols' : Symbols} {stmt : Stmt} {stmts : List Stmt} :
    symbols.Replays (stmt :: stmts) symbols' ↔
      ∃ between, symbols.recheck stmt = .ok (stmt, between) ∧ between.Replays stmts symbols' := by
  simp only [Replays, replay]
  cases hfirst : symbols.recheck stmt with
  | error fault => simp [bind, Except.bind]
  | ok first =>
    obtain ⟨stmt', between⟩ := first
    cases hrest : between.replay stmts with
    | error fault =>
      simp only [bind, Except.bind, hrest, Except.ok.injEq, Prod.mk.injEq, reduceCtorEq, false_iff]
      rintro ⟨other, ⟨-, rfl⟩, hother⟩
      rw [hrest] at hother
      cases hother
    | ok rest =>
      obtain ⟨stmts', last⟩ := rest
      simp only [bind, Except.bind, hrest, pure, Except.pure, Except.ok.injEq, Prod.mk.injEq,
        List.cons.injEq]
      constructor
      · rintro ⟨⟨rfl, rfl⟩, rfl⟩
        exact ⟨between, ⟨rfl, rfl⟩, hrest⟩
      · rintro ⟨other, ⟨rfl, rfl⟩, hother⟩
        rw [hrest] at hother
        cases hother
        exact ⟨⟨rfl, rfl⟩, rfl⟩

/-- Rows that are replayed one after the other are replayed as one row. -/
theorem Replays.append {symbols between symbols' : Symbols} {stmts stmts' : List Stmt}
    (h : symbols.Replays stmts between) (h' : between.Replays stmts' symbols') :
    symbols.Replays (stmts ++ stmts') symbols' := by
  induction stmts generalizing symbols with
  | nil =>
    obtain rfl := replays_nil.1 h
    exact h'
  | cons stmt stmts ih =>
    obtain ⟨next, hfirst, hrest⟩ := replays_cons.1 h
    exact replays_cons.2 ⟨next, hfirst, ih hrest⟩

/-- A row that is replayed can be cut anywhere. -/
theorem exists_of_replays_append {symbols symbols' : Symbols} {stmts stmts' : List Stmt}
    (h : symbols.Replays (stmts ++ stmts') symbols') :
    ∃ between, symbols.Replays stmts between ∧ between.Replays stmts' symbols' := by
  induction stmts generalizing symbols with
  | nil => exact ⟨symbols, replays_nil.2 rfl, h⟩
  | cons stmt stmts ih =>
    obtain ⟨next, hfirst, hrest⟩ := replays_cons.1 h
    obtain ⟨between, hstmts, hstmts'⟩ := ih hrest
    exact ⟨between, replays_cons.2 ⟨next, hfirst, hstmts⟩, hstmts'⟩

/-- A declaration of a folded value is replayed if the value is accepted. -/
theorem replays_declare {symbols : Symbols} {name : String} {type : ValueType} {value : Expr}
    (isMutable : Bool) (hfolded : value.IsFolded) (haccepts : symbols.Accepts type value) :
    symbols.Replays [.declare name type isMutable value] (symbols.declare name type) := by
  refine replays_cons.2 ⟨symbols.declare name type, ?_, replays_nil.2 rfl⟩
  rw [Accepts] at haccepts
  simp only [recheck, haccepts, Except.map, after_checkValue hfolded]

/-- An assignment of a folded value is replayed if the value is accepted. -/
theorem replays_assign {symbols : Symbols} {name : String} {value : Expr}
    (hfolded : value.IsFolded) (haccepts : symbols.AcceptsFor name value) :
    symbols.Replays [.assign name value] symbols := by
  refine replays_cons.2 ⟨symbols, ?_, replays_nil.2 rfl⟩
  obtain ⟨type, htype⟩ := haccepts
  simp only [recheck, htype, Except.map, after_checkAssignment hfolded]

end Symbols

/-! ### What the rules read -/

namespace Parse

open Symbols

/-- Whether a step leaves the variables that its result is replayed to, for a result with the given
declarations and assignments. -/
def Records {α : Type} (bindings : α → List Stmt) (p : Parse α) : Prop :=
  ∀ s a s', p.Gives s a s' → s.symbols.Replays (bindings a) s'.symbols

variable {production : Production → Parse Stmt} {statement : Parse Stmt}

/-- The end of a statement declares nothing. -/
theorem symbols_of_terminator {s s' : State} (h : terminator.Gives s () s') :
    s'.symbols = s.symbols := by
  rcases gives_terminator.1 h with ⟨-, rfl⟩ | ⟨-, rfl⟩ <;> rfl

section Parts

variable (hproduction : ∀ p, (production p).Records Stmt.bindings)
  (hstatement : statement.Records Stmt.bindings)

include hproduction in
/-- Folding a condition keeps what it declares. -/
theorem records_condition : (condition production).Records Expr.bindings := by
  intro s value s' h
  obtain ⟨e, he, hfold⟩ := gives_condition.1 h
  rw [Expr.bindings_of_fold hfold]
  exact hproduction .binary s (.expr e) s' he

include hstatement

theorem replays_of_givesAll {s s' : State} {body : List Stmt} (h : statement.GivesAll s body s') :
    s.symbols.Replays (Stmt.bodyBindings body) s'.symbols := by
  induction h with
  | nil s => exact replays_nil.2 rfl
  | cons first rest ih => exact (hstatement _ _ _ first).append ih

theorem records_scope : (scope statement).Records Stmt.bodyBindings := by
  intro s body s' h
  obtain ⟨t, -, hbody, -, rfl⟩ := givesAll_of_scope h
  have hreplays := replays_of_givesAll hstatement hbody
  exact hreplays

theorem records_loopBody : (loopBody statement).Records
    fun loop => Stmt.bodyBindings loop.1 ++ Stmt.fallbackBindings loop.2 := by
  rintro s ⟨body, fallback⟩ s' h
  obtain ⟨t, hbody, ⟨-, other, hother, rfl⟩ | ⟨-, rfl, rfl⟩⟩ := gives_loopBody.1 h
  · have hfallback := records_scope hstatement _ _ _ hother
    exact (records_scope hstatement _ _ _ hbody).append hfallback
  · exact (records_scope hstatement _ _ _ hbody).append (replays_nil.2 rfl)

include hproduction in
/-- The branches behind the first one add what they declare to the branches so far. -/
theorem replays_of_elseBranches {fuel : Nat} {chain chain' : Chain} {s s' : State}
    (h : (elseBranches production statement fuel chain).Gives s chain' s') :
    ∃ more, Branch.chainBindings chain' = Branch.chainBindings chain ++ more ∧
      s.symbols.Replays more s'.symbols := by
  induction fuel generalizing chain s with
  | zero => exact absurd h not_gives_exhausted
  | succ fuel ih =>
    rcases gives_elseBranches h with ⟨-, rfl, rfl⟩ | ⟨-, -, body, hbody, rfl⟩ |
      ⟨-, -, guard, t, body, u, hguard, hbody, hrest⟩
    · exact ⟨[], (List.append_nil _).symm, replays_nil.2 rfl⟩
    · have hlast := records_scope hstatement _ _ _ hbody
      exact ⟨Stmt.bodyBindings body, Chain.chainBindings_push_none chain body, hlast⟩
    · obtain ⟨more, hmore, hreplays⟩ := ih hrest
      refine ⟨(guard.bindings ++ Stmt.bodyBindings body) ++ more, ?_, ?_⟩
      · rw [hmore, Chain.chainBindings_push_some, List.append_assoc]
      · have hbranch := (records_condition hproduction _ _ _ hguard).append
          (records_scope hstatement _ _ _ hbody)
        exact hbranch.append hreplays

end Parts

/-! One lemma for each rule that reads more than a single token. -/

section Rules

variable (hproduction : ∀ p, (production p).Records Stmt.bindings)
  (hstatement : statement.Records Stmt.bindings)

include hproduction

theorem records_declarationRule : (declarationRule production).Records Stmt.bindings := by
  intro s stmt s' h
  rcases gives_declarationRule h with ⟨-, h⟩ | ⟨-, isMutable, t, type, e, u, value, hmut, -, -, -, -,
    -, he, hfold, haccepts, -, rfl, rfl⟩
  · exact hproduction _ _ _ _ h
  · have hfolded := Expr.isFolded_of_fold hfold
    have hsymbols : t.symbols = s.symbols := by
      rcases gives_mutability hmut with ⟨-, -, rfl⟩ | ⟨-, -, rfl⟩ <;> rfl
    have hvalue : s.symbols.Replays value.bindings u.symbols := by
      rw [Expr.bindings_of_fold hfold, ← hsymbols]
      exact hproduction _ _ _ _ he
    rw [after_checkValue hfolded]
    exact hvalue.append (replays_declare isMutable hfolded haccepts)

theorem records_assignmentRule : (assignmentRule production).Records Stmt.bindings := by
  intro s stmt s' h
  obtain ⟨target, t, htarget, ⟨hend, rfl⟩ | ⟨-, name, e, u, value, rfl, he, hfold, haccepts, hend,
    rfl⟩⟩ := gives_assignmentRule h
  · rw [symbols_of_terminator hend]
    exact hproduction _ _ _ _ htarget
  · -- A target is a bare identifier, and nothing can have been declared inside it.
    have hsymbols : t.symbols = s.symbols := replays_nil.1 (hproduction _ _ _ _ htarget)
    have hfolded := Expr.isFolded_of_fold hfold
    have hvalue : s.symbols.Replays value.bindings u.symbols := by
      rw [Expr.bindings_of_fold hfold, ← hsymbols]
      exact hproduction _ _ _ _ he
    rw [after_checkAssignment hfolded, symbols_of_terminator hend]
    exact hvalue.append (replays_assign hfolded haccepts)

theorem records_levelRule (whole operand : Production) (operators : List String) :
    (levelRule production whole operand operators).Records Stmt.bindings := by
  intro s stmt s' h
  obtain ⟨left, t, hleft, ⟨-, rfl, rfl⟩ | ⟨-, right, value, hright, hfold, rfl⟩⟩ :=
    gives_levelRule h
  · exact hproduction _ _ _ _ hleft
  · rw [Stmt.bindings, Expr.bindings_of_fold hfold, Expr.bindings]
    exact (hproduction _ _ _ _ hleft).append (hproduction _ _ _ _ hright)

theorem records_unaryRule : (unaryRule production).Records Stmt.bindings := by
  intro s stmt s' h
  rcases gives_unaryRule h with ⟨-, -, term, value, hterm, hfold, rfl⟩ |
    ⟨-, e, term, he, hfold, hneg⟩ | ⟨-, -, h⟩
  · rw [Stmt.bindings, Expr.bindings_of_fold hfold, Expr.bindings]
    exact hproduction _ _ _ _ hterm
  · have hterm : s.symbols.Replays term.bindings s'.symbols := by
      rw [Expr.bindings_of_fold hfold]
      exact hproduction _ _ _ _ he
    rcases gives_negated hneg with ⟨-, ⟨x, rfl, rfl⟩ | ⟨-, rfl⟩⟩
    · exact hterm
    · exact hterm
  · exact hproduction _ _ _ _ h

include hstatement

theorem records_conditionalRule :
    (conditionalRule production statement).Records Stmt.bindings := by
  intro s stmt s' h
  rcases gives_conditionalRule h with ⟨-, h⟩ | ⟨-, guard, t, body, u, fuel, chain, hguard, hbody,
    hchain, rfl⟩
  · exact hproduction _ _ _ _ h
  · obtain ⟨more, hmore, hreplays⟩ := replays_of_elseBranches hproduction hstatement hchain
    have hfirst := (records_condition hproduction _ _ _ hguard).append
      (records_scope hstatement _ _ _ hbody)
    rw [Stmt.bindings, Expr.bindings, hmore, Chain.chainBindings_push_some]
    exact hfirst.append hreplays

theorem records_forRule : (forRule production statement).Records Stmt.bindings := by
  intro s stmt s' h
  rcases gives_forRule h with ⟨-, h⟩ | ⟨-, -, init, t, guard, u, update, v, body, fallback, hinit,
    hguard, -, hupdate, -, hbody, rfl⟩
  · exact hproduction _ _ _ _ h
  · have hloop := records_loopBody hstatement _ _ _ hbody
    have hguard := records_condition hproduction _ _ _ hguard
    exact (hproduction _ _ _ _ hinit).append
      (hguard.append ((hproduction _ _ _ _ hupdate).append hloop))

theorem records_whileRule : (whileRule production statement).Records Stmt.bindings := by
  intro s stmt s' h
  rcases gives_whileRule h with ⟨-, h⟩ | ⟨-, guard, t, body, fallback, hguard, hbody, rfl⟩
  · exact hproduction _ _ _ _ h
  · exact (records_condition hproduction _ _ _ hguard).append
      (records_loopBody hstatement _ _ _ hbody)

theorem records_loopRule : (loopRule production statement).Records Stmt.bindings := by
  intro s stmt s' h
  rcases gives_loopRule h with ⟨-, h⟩ | ⟨-, body, fallback, hbody, rfl⟩
  · exact hproduction _ _ _ _ h
  · exact records_loopBody hstatement _ _ _ hbody

theorem records_parenthesisRule :
    (parenthesisRule production statement).Records Stmt.bindings := by
  intro s stmt s' h
  rcases gives_parenthesisRule h with ⟨-, h⟩ | ⟨-, e, t, he, -, rfl, rfl⟩
  · exact hproduction _ _ _ _ h
  · have hinner := hstatement _ _ _ he
    exact hinner

omit hstatement

theorem records_jumpRule (target : Jump) : (jumpRule production target).Records Stmt.bindings := by
  intro s stmt s' h
  rcases gives_jumpRule h with ⟨-, h⟩ | ⟨-, -, rfl, rfl⟩
  · exact hproduction _ _ _ _ h
  · exact replays_nil.2 rfl

end Rules

/-- What a rule of a dialect reads is replayed to the variables that it leaves, provided this is so
for the productions and statements inside. -/
theorem records_rule {d : Dialect} {p : Production} {rule : Rule}
    (hrule : d.grammar.rule? p = some rule)
    (hproduction : ∀ p, (production p).Records Stmt.bindings)
    (hstatement : statement.Records Stmt.bindings) :
    (rule.parse production statement).Records Stmt.bindings := by
  cases rule with
  | conditional => exact records_conditionalRule hproduction hstatement
  | forLoop => exact records_forRule hproduction hstatement
  | whileLoop => exact records_whileRule hproduction hstatement
  | loop => exact records_loopRule hproduction hstatement
  | jump target => exact records_jumpRule hproduction target
  | declaration => exact records_declarationRule hproduction
  | assignment => exact records_assignmentRule hproduction
  | forward target => exact hproduction target
  | level whole operand operators => exact records_levelRule hproduction whole operand operators
  | unary => exact records_unaryRule hproduction
  | parenthesis => exact records_parenthesisRule hproduction hstatement
  | leaf kind read otherwise =>
    intro s stmt s' h
    rcases gives_leafRule h with ⟨-, h⟩ | ⟨-, e, hread, rfl, rfl⟩
    · exact hproduction _ _ _ _ h
    · rcases Dialect.plain_of_leaf hrule hread with ⟨-, rfl⟩ | hliteral
      · exact replays_nil.2 rfl
      · rw [Stmt.bindings, Expr.bindings_of_isLiteral hliteral]
        exact replays_nil.2 rfl
  | number =>
    intro s stmt s' h
    obtain ⟨-, e, hread, rfl, rfl⟩ := gives_numberRule h
    obtain ⟨value, -, rfl⟩ := exists_of_readNumber hread
    exact replays_nil.2 rfl

end Parse

/-! ### Accepted programs -/

namespace Symbols

/-- A variable that is known after a replay was known before it or is declared in it. -/
theorem Replays.declares {symbols symbols' : Symbols} {stmts : List Stmt} {name : String}
    (h : symbols.Replays stmts symbols') (hname : symbols'.Declares name) :
    symbols.Declares name ∨
      ∃ type isMutable value, Stmt.declare name type isMutable value ∈ stmts := by
  induction stmts generalizing symbols with
  | nil =>
    obtain rfl := replays_nil.1 h
    exact .inl hname
  | cons stmt stmts ih =>
    obtain ⟨between, hfirst, hrest⟩ := replays_cons.1 h
    rcases ih hrest with hbetween | ⟨type, isMutable, value, hmem⟩
    · cases stmt with
      | expr value =>
        cases hfirst
        exact .inl hbetween
      | assign other value =>
        simp only [recheck] at hfirst
        cases houtcome : (symbols.checkAssignment other value).outcome with
        | error fault => rw [houtcome] at hfirst; cases hfirst
        | ok type =>
          rw [houtcome] at hfirst
          simp only [Except.map, Except.ok.injEq, Prod.mk.injEq] at hfirst
          obtain ⟨-, rfl⟩ := hfirst
          exact .inl hbetween
      | declare other type isMutable value =>
        simp only [recheck] at hfirst
        cases houtcome : (symbols.checkValue type value).outcome with
        | error fault => rw [houtcome] at hfirst; cases hfirst
        | ok u =>
          rw [houtcome] at hfirst
          simp only [Except.map, Except.ok.injEq, Prod.mk.injEq] at hfirst
          obtain ⟨-, rfl⟩ := hfirst
          obtain ⟨found, hfound⟩ := hbetween
          rw [lookup?_declare] at hfound
          split at hfound
          · rename_i heq
            subst heq
            exact .inr ⟨type, isMutable, value, List.mem_cons_self⟩
          · exact .inl ⟨found, hfound⟩
    · exact .inr ⟨type, isMutable, value, List.mem_cons_of_mem _ hmem⟩

/-- The variable of an assignment that is replayed is declared. -/
theorem declares_of_recheck_assign {symbols symbols' : Symbols} {name : String} {value : Expr}
    {stmt : Stmt} (h : symbols.recheck (.assign name value) = .ok (stmt, symbols')) :
    symbols.Declares name := by
  simp only [recheck] at h
  cases houtcome : (symbols.checkAssignment name value).outcome with
  | error fault => rw [houtcome] at h; cases h
  | ok type =>
    obtain ⟨type', htype', -⟩ := acceptsFor_iff.1 ⟨type, houtcome⟩
    exact ⟨type', htype'⟩

end Symbols

namespace Dialect

open Symbols

/-- What a production reads is replayed to the variables that it leaves. -/
theorem records_production (d : Dialect) (p : Production) :
    (d.grammar.production p).Records Stmt.bindings := by
  intro s stmt s' hgives
  refine d.grammar.gives_induction
    (motive := fun s stmt s' => s.symbols.Replays stmt.bindings s'.symbols) ?_ hgives
  exact fun _ _ hproduction hstatement _ _ hrule =>
    Parse.records_rule hrule hproduction hstatement

/-- What a statement is read as is replayed to the variables that it leaves. -/
theorem records_statement (d : Dialect) : d.grammar.statement.Records Stmt.bindings := by
  intro s stmt s' hgives
  obtain ⟨root, hroot⟩ := Grammar.gives_start hgives
  exact d.records_production root s stmt s' hroot

/-- A program that is accepted is replayed from an empty table to the variables of the parser. -/
theorem replays_of_parse {d : Dialect} {tokens : List Token} {file : String} {program : List Stmt}
    (h : (d.parse tokens file).result = .ok program) :
    Symbols.empty.Replays (Stmt.bodyBindings program) (d.parse tokens file).state.symbols := by
  have hgives : d.grammar.program.Gives (State.ofTokens tokens file) program
      (d.parse tokens file).state := ⟨h, rfl⟩
  exact Parse.replays_of_givesAll d.records_statement (Parse.givesAll_of_many hgives).1

/-- Every program that is accepted is accepted again when its declarations and assignments are
checked in source order from an empty table: this changes no node and ends with the variables that
the parser has declared.  So every variable that is assigned was declared before. -/
theorem parse_replays (d : Dialect) (tokens : List Token) (file : String) (program : List Stmt)
    (h : (d.parse tokens file).result = .ok program) :
    Symbols.empty.replay (Stmt.bodyBindings program) =
        .ok (Stmt.bodyBindings program, (d.parse tokens file).state.symbols) ∧
      ∀ before name value after,
        Stmt.bodyBindings program = before ++ Stmt.assign name value :: after →
          ∃ type isMutable first, Stmt.declare name type isMutable first ∈ before := by
  have hreplays := replays_of_parse h
  refine ⟨hreplays, ?_⟩
  intro before name value after hsplit
  rw [hsplit] at hreplays
  obtain ⟨between, hbefore, hrest⟩ := exists_of_replays_append hreplays
  obtain ⟨next, hassign, -⟩ := replays_cons.1 hrest
  rcases hbefore.declares (declares_of_recheck_assign hassign) with ⟨type, htype⟩ | hdeclared
  · rw [lookup?_empty] at htype
    cases htype
  · exact hdeclared

/-- A declaration whose value has a loop as an operand, with a declaration and an assignment in its
body. -/
def nestedTokens : List Token :=
  [.bare .kwLet "let", .bare .identifier "a", .bare .colon ":", .bare .typeName "bool",
   .bare .assign "=", .bare .bool "true", .bare .semicolon ";",
   .bare .kwLet "let", .bare .identifier "b", .bare .colon ":", .bare .typeName "bool",
   .bare .assign "=", .bare .identifier "a", .bare .binaryOperator "&&",
   .bare .openParen "(", .bare .kwLoop "loop", .bare .openCurly "\x7b",
   .bare .kwLet "let", .bare .identifier "c", .bare .colon ":", .bare .typeName "str",
   .bare .assign "=", .bare .str "\"x\"", .bare .semicolon ";",
   .bare .identifier "c", .bare .assign "=", .bare .identifier "c", .bare .semicolon ";",
   .bare .closeCurly "\x7d", .bare .closeParen ")", .bare .semicolon ";"]

/-- The statements that these tokens are read as. -/
def nestedProgram : List Stmt :=
  [.declare "a" .bool false (.boolean true),
   .declare "b" .bool false (.binary (.identifier "a") "&&"
     (.loop [.declare "c" .str false (.str "x"), .assign "c" (.identifier "c")] none))]

set_option maxRecDepth 2000 in
/-- The variable in the loop is declared before the one whose value the loop belongs to. -/
theorem parse_replays_nested :
    (Dialect.full.parse nestedTokens "").result = .ok nestedProgram ∧
      Symbols.empty.replay (Stmt.bodyBindings nestedProgram) =
        .ok (Stmt.bodyBindings nestedProgram,
          ((Symbols.empty.declare "a" .bool).declare "c" .str).declare "b" .bool) := by
  have hresult : (Dialect.full.parse nestedTokens "").result = .ok nestedProgram := by cbv
  have hsymbols : (Dialect.full.parse nestedTokens "").state.symbols =
      ((Symbols.empty.declare "a" .bool).declare "c" .str).declare "b" .bool := by cbv
  exact ⟨hresult, hsymbols ▸ (parse_replays .full nestedTokens "" nestedProgram hresult).1⟩

end Dialect

end Cascade
