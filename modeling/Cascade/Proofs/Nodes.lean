import Mathlib.Tactic.Common
import Cascade.Proofs.Runs

/-!
# The nodes of a parsed program

A tree may hold any texts as names and operators and any links between the branches of a
conditional.  A parser does not make use of that: names come from tokens, there is one unary
operator and there are six binary ones, and the branches of a conditional are linked one to the
other, the first with a condition and only the last perhaps without one.  This is so for every node
of a program, however deep it is nested.

## Main definitions

* `Stmt.children` : the parts of a statement, conditions and operands as statements on their own.
* `Stmt.Within`, `Stmt.Throughout` : the nodes of a statement, and what holds of all of them.
* `Chain.Linked` : the branches of a conditional as a parser puts them together.
* `Stmt.WellBuilt` : a node is of the form that a parser gives it.
* `Parse.Builds` : a step gives what is well built from tokens with proper names.

## Main results

* `Stmt.throughout_iff` : what holds throughout a statement holds of it and throughout its parts.
* `Stmt.children_induction` : induction over the parts of a statement.
* `Parse.builds_rule` : a rule builds well if the productions inside do.
* `Dialect.wellBuilt_of_parse` : every node of a program is well built.
-/

namespace Cascade

/-! ### Nodes -/

/-- The condition of a branch and the statements in its body. -/
def Branch.children (branch : Branch) : List Stmt :=
  (branch.condition.map Stmt.expr).toList ++ branch.body

/-- The parts of an expression, from left to right. -/
def Expr.children : Expr → List Stmt
  | .unary _ term => [.expr term]
  | .binary left _ right => [.expr left, .expr right]
  | .loop body fallback => body ++ fallback.getD []
  | .whileLoop condition body fallback => .expr condition :: (body ++ fallback.getD [])
  | .forLoop init condition update body fallback =>
    init :: .expr condition :: update :: (body ++ fallback.getD [])
  | .conditional branches => branches.flatMap Branch.children
  | _ => []

namespace Stmt

/-- The parts of a statement, from left to right.  Conditions, operands and values count as
statements on their own. -/
def children : Stmt → List Stmt
  | .expr value => value.children
  | .assign _ value => [.expr value]
  | .declare _ _ _ value => [.expr value]

/-- Whether a statement is another one or stands somewhere in it. -/
inductive Within : Stmt → Stmt → Prop
  | refl (s : Stmt) : Within s s
  | child {s part whole : Stmt} (hpart : part ∈ whole.children) (h : Within s part) :
      Within s whole

/-- Whether all nodes of a statement are of the given kind. -/
def Throughout (P : Stmt → Prop) (s : Stmt) : Prop :=
  ∀ t, t.Within s → P t

variable {P : Stmt → Prop} {s t : Stmt}

/-- What holds throughout a statement holds of it and throughout its parts. -/
theorem throughout_iff : s.Throughout P ↔ P s ∧ ∀ part ∈ s.children, part.Throughout P := by
  constructor
  · intro h
    exact ⟨h s (.refl s), fun part hpart t ht => h t (.child hpart ht)⟩
  · rintro ⟨hs, hparts⟩ t ht
    cases ht with
    | refl => exact hs
    | child hpart ht => exact hparts _ hpart t ht

theorem Throughout.node (h : s.Throughout P) : P s :=
  (throughout_iff.1 h).1

theorem Throughout.of_mem (h : s.Throughout P) (ht : t ∈ s.children) : t.Throughout P :=
  (throughout_iff.1 h).2 t ht

/-- What holds throughout a statement holds throughout what stands in it. -/
theorem Within.throughout (h : t.Within s) (hs : s.Throughout P) : t.Throughout P := by
  induction h with
  | refl => exact hs
  | child hpart h ih => exact ih (hs.of_mem hpart)

end Stmt

/-! ### Induction over the parts -/

/-- A part of a branch is smaller than the branch, up to the node that makes it a statement. -/
private theorem Branch.sizeOf_le_of_mem_children {branch : Branch} {part : Stmt}
    (h : part ∈ branch.children) : sizeOf part ≤ sizeOf branch := by
  obtain ⟨condition, before, body⟩ := branch
  rcases List.mem_append.1 h with hpart | hpart
  · cases condition with
    | none => cases hpart
    | some guard =>
      obtain rfl := List.mem_singleton.1 hpart
      simp only [Stmt.expr.sizeOf_spec, Branch.mk.sizeOf_spec, Option.some.sizeOf_spec]
      omega
  · have hlt : sizeOf part < sizeOf body := List.sizeOf_lt_of_mem hpart
    simp only [Branch.mk.sizeOf_spec]
    omega

/-- A part of a loop is smaller than its body and its fallback together. -/
private theorem Stmt.sizeOf_lt_of_mem_loop {body : List Stmt} {fallback : Option (List Stmt)}
    {part : Stmt} (h : part ∈ body ++ fallback.getD []) :
    sizeOf part < sizeOf body + sizeOf fallback := by
  rcases List.mem_append.1 h with hpart | hpart
  · have hlt := List.sizeOf_lt_of_mem hpart
    omega
  · cases fallback with
    | none => cases hpart
    | some other =>
      have hlt : sizeOf part < sizeOf other := List.sizeOf_lt_of_mem hpart
      simp only [Option.some.sizeOf_spec]
      omega

/-- A part of a statement is smaller than the statement. -/
theorem Stmt.sizeOf_lt_of_mem_children {s part : Stmt} (h : part ∈ s.children) :
    sizeOf part < sizeOf s := by
  have htext : ∀ text : String, 0 < sizeOf text := by
    rintro ⟨bytes, valid⟩
    rw [String.ofByteArray.sizeOf_spec]
    omega
  cases s with
  | assign name value =>
    have hname := htext name
    obtain rfl := List.mem_singleton.1 h
    simp only [expr.sizeOf_spec, assign.sizeOf_spec]
    omega
  | declare name type isMutable value =>
    have hname := htext name
    obtain rfl := List.mem_singleton.1 h
    simp only [expr.sizeOf_spec, declare.sizeOf_spec]
    omega
  | expr value =>
    rw [expr.sizeOf_spec]
    cases value with
    | unary operator term =>
      obtain rfl := List.mem_singleton.1 h
      simp only [expr.sizeOf_spec, Expr.unary.sizeOf_spec]
      omega
    | binary left operator right =>
      simp only [children, Expr.children, List.mem_cons, List.not_mem_nil, or_false] at h
      rcases h with rfl | rfl <;> simp only [expr.sizeOf_spec, Expr.binary.sizeOf_spec] <;> omega
    | loop body fallback =>
      have hlt := sizeOf_lt_of_mem_loop h
      simp only [Expr.loop.sizeOf_spec]
      omega
    | whileLoop condition body fallback =>
      simp only [Expr.whileLoop.sizeOf_spec]
      rcases List.mem_cons.1 h with rfl | h
      · simp only [expr.sizeOf_spec]
        omega
      · have hlt := sizeOf_lt_of_mem_loop h
        omega
    | forLoop init condition update body fallback =>
      simp only [Expr.forLoop.sizeOf_spec]
      simp only [children, Expr.children, List.mem_cons] at h
      rcases h with rfl | rfl | rfl | h
      · omega
      · simp only [expr.sizeOf_spec]
        omega
      · omega
      · have hlt := sizeOf_lt_of_mem_loop h
        omega
    | conditional branches =>
      obtain ⟨branch, hbranch, hpart⟩ := List.mem_flatMap.1 h
      have hle := Branch.sizeOf_le_of_mem_children hpart
      have hlt := List.sizeOf_lt_of_mem hbranch
      simp only [Expr.conditional.sizeOf_spec]
      omega
    | _ => cases h

/-- What holds of a statement if it holds of its parts holds of every statement. -/
theorem Stmt.children_induction {motive : Stmt → Prop}
    (step : ∀ s : Stmt, (∀ part ∈ s.children, motive part) → motive s) (s : Stmt) : motive s :=
  step s fun part _ => children_induction step part
termination_by sizeOf s
decreasing_by exact sizeOf_lt_of_mem_children ‹_›

/-! ### Well-built nodes -/

/-- Whether some branches follow each other from an index on: each is linked to the one before it,
and a branch without a condition is neither the first one nor followed by another one. -/
def Branch.LinkedFrom : Nat → List Branch → Prop
  | _, [] => True
  | index, branch :: branches =>
    branch.before = (if index = 0 then none else some (index - 1)) ∧
      (branch.condition = none → index ≠ 0 ∧ branches = []) ∧
      LinkedFrom (index + 1) branches

/-- Whether the branches of a conditional are put together as by a parser. -/
def Chain.Linked (chain : Chain) : Prop :=
  chain ≠ [] ∧ Branch.LinkedFrom 0 chain

/-- The operators that stand between two operands. -/
def binarySymbols : List String :=
  ["&&", "||", "+", "-", "*", "/"]

/-- Whether a node is of the form that a parser gives it, with names of the given kind. -/
def Stmt.WellBuilt (isName : String → Prop) : Stmt → Prop
  | .expr (.identifier name) => isName name
  | .expr (.unary operator _) => operator = "!"
  | .expr (.binary _ operator _) => operator ∈ binarySymbols
  | .expr (.conditional branches) => Chain.Linked branches
  | .assign name _ => isName name
  | .declare name _ _ _ => isName name
  | _ => True

/-- Whether all nodes of a statement are of the form that a parser gives them. -/
abbrev Stmt.Built (isName : String → Prop) (s : Stmt) : Prop :=
  s.Throughout (WellBuilt isName)

/-- A branch that is put behind others with conditions is linked to them. -/
theorem Branch.LinkedFrom.concat {index : Nat} {branches : List Branch} {branch : Branch}
    (h : LinkedFrom index branches) (hopen : ∀ other ∈ branches, other.condition ≠ none)
    (hbefore : branch.before =
      if index + branches.length = 0 then none else some (index + branches.length - 1))
    (hcondition : branch.condition = none → index + branches.length ≠ 0) :
    LinkedFrom index (branches ++ [branch]) := by
  induction branches generalizing index with
  | nil => exact ⟨hbefore, fun hnone => ⟨hcondition hnone, rfl⟩, trivial⟩
  | cons first branches ih =>
    obtain ⟨hfirst, hopen⟩ := List.forall_mem_cons.1 hopen
    obtain ⟨hlink, -, hrest⟩ := h
    rw [List.length_cons, Nat.add_comm branches.length, ← Nat.add_assoc] at hbefore hcondition
    exact ⟨hlink, fun hnone => absurd hnone hfirst, ih hrest hopen hbefore hcondition⟩

/-- Whether a conditional may go on: its branches are linked and all have conditions. -/
structure Chain.Open (chain : Chain) : Prop where
  linked : chain.Linked
  guarded : ∀ branch ∈ chain, branch.condition ≠ none

theorem Chain.open_first (body : List Stmt) (guard : Expr) :
    Chain.Open (Chain.push [] body (some guard)) :=
  ⟨⟨List.cons_ne_nil _ _, rfl, nofun, trivial⟩, List.forall_mem_singleton.2 nofun⟩

/-- A conditional that may go on is linked with one more branch. -/
theorem Chain.Open.linked_push {chain : Chain} (h : chain.Open) (body : List Stmt)
    (condition : Option Expr) : (chain.push body condition).Linked := by
  have hlength : 0 + chain.length ≠ 0 := by
    rw [Nat.zero_add]
    exact List.length_eq_zero_iff.not.2 h.linked.1
  refine ⟨by simp [push], h.linked.2.concat h.guarded ?_ fun _ => hlength⟩
  rw [Nat.zero_add]
  rfl

theorem Chain.Open.push {chain : Chain} (h : chain.Open) (body : List Stmt) (guard : Expr) :
    (Chain.push chain body (some guard)).Open := by
  refine ⟨h.linked_push body (some guard), ?_⟩
  exact List.forall_mem_append.2 ⟨h.guarded, List.forall_mem_singleton.2 nofun⟩

/-! ### Folding -/

namespace Expr

variable {isName : String → Prop}

/-- A literal is well built. -/
theorem wellBuilt_of_isLiteral {e : Expr} (h : e.isLiteral = true) :
    (Stmt.expr e).Built isName := by
  refine Stmt.throughout_iff.2 ?_
  cases e <;> simp_all [isLiteral, Stmt.WellBuilt, Stmt.children, children]

/-- Folding makes no other nodes than there are, but for literals. -/
theorem wellBuilt_of_fold {e value : Expr} (h : e.fold = .ok value)
    (he : (Stmt.expr e).Built isName) :
    (Stmt.expr value).Built isName := by
  refine fold_induction (motive := fun e value => (Stmt.expr e).Built isName →
    (Stmt.expr value).Built isName) ?_ ?_ ?_ ?_ h he
  · exact fun e _ => id
  · intro operator term t ht hterm
    have hoperand := ht (hterm.of_mem (List.mem_singleton_self _))
    by_cases hkept : operator = "!" → ∀ value, t ≠ boolean value
    · rw [applyUnary_eq_self_iff.2 hkept]
      exact Stmt.throughout_iff.2 ⟨hterm.node, List.forall_mem_singleton.2 hoperand⟩
    · push Not at hkept
      obtain ⟨rfl, value, rfl⟩ := hkept
      exact wellBuilt_of_isLiteral rfl
  · intro left operator right l r value hl hr hll hrl hv _ _
    exact wellBuilt_of_isLiteral hv
  · intro left operator right l r hl hr _ hbinary
    have hleft := hl (hbinary.of_mem List.mem_cons_self)
    have hright := hr (hbinary.of_mem (List.mem_cons_of_mem _ (List.mem_singleton_self _)))
    exact Stmt.throughout_iff.2
      ⟨hbinary.node, List.forall_mem_cons.2 ⟨hleft, List.forall_mem_singleton.2 hright⟩⟩

end Expr

/-! ### What the rules build -/

/-- Whether every identifier among the tokens that are left has a name of the given kind. -/
def State.Names (isName : String → Prop) (s : State) : Prop :=
  ∀ t ∈ s.cursor.remaining, t.kind = .identifier → isName t.value

theorem State.Names.advance {isName : String → Prop} {s : State} (h : s.Names isName) :
    s.advance.Names isName :=
  fun t ht => h t (s.cursor.remaining_advance_suffix.subset ht)

theorem State.Names.here {isName : String → Prop} {s : State} (h : s.Names isName)
    (hkind : s.cursor.here.kind = .identifier) : isName s.cursor.here.value :=
  h _ List.mem_cons_self hkind

theorem Dialect.operators_of_level {d : Dialect} {p whole operand : Production}
    {operators : List String} (h : d.grammar.rule? p = some (.level whole operand operators)) :
    operators ⊆ binarySymbols := by
  cases d <;> cases p <;> cases h <;> decide

namespace Parse

/-- Whether a step gives what is good, and leaves tokens with proper names, where all names are
proper that are left before. -/
def Builds {α : Type} (isName : String → Prop) (good : α → Prop) (p : Parse α) : Prop :=
  ∀ s a s', p.Gives s a s' → s.Names isName → good a ∧ s'.Names isName

variable {isName : String → Prop} {production : Production → Parse Stmt} {statement : Parse Stmt}

theorem names_of_terminator {s s' : State} {u : Unit} (h : terminator.Gives s u s')
    (hs : s.Names isName) : s'.Names isName := by
  rcases gives_terminator.1 h with ⟨-, rfl⟩ | ⟨-, rfl⟩
  · exact hs.advance
  · exact hs

theorem names_of_mutability {s s' : State} {isMutable : Bool} (h : mutability.Gives s isMutable s')
    (hs : s.Names isName) : s'.Names isName := by
  rcases gives_mutability h with ⟨-, -, rfl⟩ | ⟨-, -, rfl⟩
  · exact hs.advance
  · exact hs

section Parts

variable (hproduction : ∀ p, (production p).Builds isName (Stmt.Built isName))
  (hstatement : statement.Builds isName (Stmt.Built isName))

include hproduction in
theorem builds_condition :
    (condition production).Builds isName fun guard =>
      (Stmt.expr guard).Built isName := by
  intro s guard s' h hs
  obtain ⟨e, he, hfold⟩ := gives_condition.1 h
  obtain ⟨hbuilt, hs'⟩ := hproduction _ _ _ _ he hs
  exact ⟨Expr.wellBuilt_of_fold hfold hbuilt, hs'⟩

include hstatement

theorem built_of_givesAll {s s' : State} {body : List Stmt} (h : statement.GivesAll s body s')
    (hs : s.Names isName) :
    (∀ stmt ∈ body, stmt.Built isName) ∧ s'.Names isName := by
  induction h with
  | nil s => exact ⟨nofun, hs⟩
  | cons first rest ih =>
    obtain ⟨hfirst, ht⟩ := hstatement _ _ _ first hs
    obtain ⟨hrest, hs'⟩ := ih ht
    exact ⟨List.forall_mem_cons.2 ⟨hfirst, hrest⟩, hs'⟩

theorem builds_scope : (scope statement).Builds isName fun body =>
    ∀ stmt ∈ body, stmt.Built isName := by
  intro s body s' h hs
  obtain ⟨t, -, hbody, -, rfl⟩ := givesAll_of_scope h
  obtain ⟨hbuilt, ht⟩ := built_of_givesAll hstatement hbody hs.advance
  exact ⟨hbuilt, ht.advance⟩

theorem builds_loopBody : (loopBody statement).Builds isName fun loop =>
    ∀ stmt ∈ loop.1 ++ loop.2.getD [], stmt.Built isName := by
  rintro s ⟨body, fallback⟩ s' h hs
  obtain ⟨t, hbody, hfallback⟩ := gives_loopBody.1 h
  obtain ⟨hbuilt, ht⟩ := builds_scope hstatement _ _ _ hbody hs
  rcases hfallback with ⟨-, other, hother, rfl⟩ | ⟨-, rfl, rfl⟩
  · obtain ⟨hother, hs'⟩ := builds_scope hstatement _ _ _ hother ht.advance
    exact ⟨List.forall_mem_append.2 ⟨hbuilt, hother⟩, hs'⟩
  · exact ⟨List.forall_mem_append.2 ⟨hbuilt, nofun⟩, ht⟩

include hproduction in
/-- The branches of a conditional stay linked while others are put behind them. -/
theorem built_of_elseBranches {fuel : Nat} {chain chain' : Chain} {s s' : State}
    (h : (elseBranches production statement fuel chain).Gives s chain' s') (hchain : chain.Open)
    (hbuilt : ∀ stmt ∈ chain.flatMap Branch.children, stmt.Built isName)
    (hs : s.Names isName) :
    (Stmt.expr (.conditional chain')).Built isName ∧ s'.Names isName := by
  -- The parts of a new branch come behind those of the branches before it.
  have hpush : ∀ (chain : Chain) (body : List Stmt) (condition : Option Expr),
      (∀ stmt ∈ chain.flatMap Branch.children, stmt.Built isName) →
      (∀ stmt ∈ (condition.map Stmt.expr).toList ++ body, stmt.Built isName) →
      ∀ stmt ∈ (chain.push body condition).flatMap Branch.children,
        stmt.Built isName := by
    intro chain body condition hold hnew
    rw [Chain.push, List.flatMap_append, List.flatMap_singleton]
    exact List.forall_mem_append.2 ⟨hold, hnew⟩
  induction fuel generalizing chain s with
  | zero => exact absurd h not_gives_exhausted
  | succ fuel ih =>
    rcases gives_elseBranches h with ⟨-, rfl, rfl⟩ | ⟨-, -, body, hbody, rfl⟩ |
      ⟨-, -, guard, t, body, u, hguard, hbody, hrest⟩
    · exact ⟨Stmt.throughout_iff.2 ⟨hchain.linked, hbuilt⟩, hs⟩
    · obtain ⟨hbody, hs'⟩ := builds_scope hstatement _ _ _ hbody hs.advance
      refine ⟨Stmt.throughout_iff.2 ⟨hchain.linked_push body none, ?_⟩, hs'⟩
      exact hpush chain body none hbuilt hbody
    · obtain ⟨hguard, ht⟩ := builds_condition hproduction _ _ _ hguard hs.advance.advance
      obtain ⟨hbody, hu⟩ := builds_scope hstatement _ _ _ hbody ht
      refine ih hrest (hchain.push body guard) (hpush chain body (some guard) hbuilt ?_) hu
      exact List.forall_mem_cons.2 ⟨hguard, hbody⟩

end Parts

/-! One lemma for each rule that reads more than a single token. -/

section Rules

variable (hproduction : ∀ p, (production p).Builds isName (Stmt.Built isName))
  (hstatement : statement.Builds isName (Stmt.Built isName))

include hproduction

theorem builds_declarationRule :
    (declarationRule production).Builds isName (Stmt.Built isName) := by
  intro s stmt s' h hs
  rcases gives_declarationRule h with ⟨-, h⟩ | ⟨-, isMutable, t, type, e, u, value, hmut, hname, -,
    -, -, -, he, hfold, -, -, rfl, rfl⟩
  · exact hproduction _ _ _ _ h hs
  · have ht := names_of_mutability hmut hs.advance
    obtain ⟨hbuilt, hu⟩ := hproduction _ _ _ _ he ht.advance.advance.advance.advance
    rw [Symbols.after_checkValue (Expr.isFolded_of_fold hfold)]
    have hvalue := Expr.wellBuilt_of_fold hfold hbuilt
    exact ⟨Stmt.throughout_iff.2 ⟨ht.here hname, List.forall_mem_singleton.2 hvalue⟩, hu.advance⟩

theorem builds_assignmentRule :
    (assignmentRule production).Builds isName (Stmt.Built isName) := by
  intro s stmt s' h hs
  obtain ⟨target, t, htarget, ⟨hend, rfl⟩ | ⟨-, name, e, u, value, rfl, he, hfold, -, hend, rfl⟩⟩ :=
    gives_assignmentRule h
  · obtain ⟨htarget, ht⟩ := hproduction _ _ _ _ htarget hs
    exact ⟨htarget, names_of_terminator hend ht⟩
  · obtain ⟨htarget, ht⟩ := hproduction _ _ _ _ htarget hs
    obtain ⟨hbuilt, hu⟩ := hproduction _ _ _ _ he ht.advance
    rw [Symbols.after_checkAssignment (Expr.isFolded_of_fold hfold)]
    have hvalue := Expr.wellBuilt_of_fold hfold hbuilt
    exact ⟨Stmt.throughout_iff.2 ⟨htarget.node, List.forall_mem_singleton.2 hvalue⟩,
      names_of_terminator hend hu⟩

theorem builds_levelRule {whole operand : Production} {operators : List String}
    (hoperators : operators ⊆ binarySymbols) :
    (levelRule production whole operand operators).Builds isName
      (Stmt.Built isName) := by
  intro s stmt s' h hs
  obtain ⟨left, t, hleft, ⟨-, rfl, rfl⟩ | ⟨hop, right, value, hright, hfold, rfl⟩⟩ :=
    gives_levelRule h
  · exact hproduction _ _ _ _ hleft hs
  · obtain ⟨hleft, ht⟩ := hproduction _ _ _ _ hleft hs
    obtain ⟨hright, hs'⟩ := hproduction _ _ _ _ hright ht.advance
    have hsymbol : t.cursor.here.value ∈ binarySymbols := by
      simp only [Token.isOperator, Bool.and_eq_true, decide_eq_true_eq] at hop
      exact hoperators (List.contains_iff_mem.1 hop.2)
    refine ⟨Expr.wellBuilt_of_fold hfold (Stmt.throughout_iff.2 ⟨hsymbol, ?_⟩), hs'⟩
    exact List.forall_mem_cons.2 ⟨hleft, List.forall_mem_singleton.2 hright⟩

theorem builds_unaryRule :
    (unaryRule production).Builds isName (Stmt.Built isName) := by
  intro s stmt s' h hs
  rcases gives_unaryRule h with ⟨-, -, term, value, hterm, hfold, rfl⟩ |
    ⟨-, e, term, he, hfold, hneg⟩ | ⟨-, -, h⟩
  · obtain ⟨hterm, hs'⟩ := hproduction _ _ _ _ hterm hs.advance
    exact ⟨Expr.wellBuilt_of_fold hfold
      (Stmt.throughout_iff.2 ⟨rfl, List.forall_mem_singleton.2 hterm⟩), hs'⟩
  · obtain ⟨hbuilt, hs'⟩ := hproduction _ _ _ _ he hs.advance
    have hterm := Expr.wellBuilt_of_fold hfold hbuilt
    refine ⟨?_, hs'⟩
    rcases gives_negated hneg with ⟨-, ⟨x, rfl, rfl⟩ | ⟨-, rfl⟩⟩
    · exact Expr.wellBuilt_of_isLiteral rfl
    · have hminus : "-" ∈ binarySymbols := by decide
      refine Stmt.throughout_iff.2 ⟨hminus, List.forall_mem_cons.2 ⟨?_, ?_⟩⟩
      · exact Expr.wellBuilt_of_isLiteral rfl
      · exact List.forall_mem_singleton.2 hterm
  · exact hproduction _ _ _ _ h hs

theorem builds_jumpRule (target : Jump) :
    (jumpRule production target).Builds isName (Stmt.Built isName) := by
  intro s stmt s' h hs
  rcases gives_jumpRule h with ⟨-, h⟩ | ⟨-, -, rfl, rfl⟩
  · exact hproduction _ _ _ _ h hs
  · exact ⟨Stmt.throughout_iff.2 ⟨trivial, nofun⟩, hs.advance.advance⟩

include hstatement

theorem builds_conditionalRule :
    (conditionalRule production statement).Builds isName
      (Stmt.Built isName) := by
  intro s stmt s' h hs
  rcases gives_conditionalRule h with ⟨-, h⟩ | ⟨-, guard, t, body, u, fuel, chain, hguard, hbody,
    hchain, rfl⟩
  · exact hproduction _ _ _ _ h hs
  · obtain ⟨hguard, ht⟩ := builds_condition hproduction _ _ _ hguard hs.advance
    obtain ⟨hbody, hu⟩ := builds_scope hstatement _ _ _ hbody ht
    refine built_of_elseBranches hproduction hstatement hchain (Chain.open_first body guard) ?_ hu
    rw [Chain.push, List.nil_append, List.flatMap_singleton]
    exact List.forall_mem_cons.2 ⟨hguard, hbody⟩

theorem builds_forRule :
    (forRule production statement).Builds isName (Stmt.Built isName) := by
  intro s stmt s' h hs
  rcases gives_forRule h with ⟨-, h⟩ | ⟨-, -, init, t, guard, u, update, v, body, fallback, hinit,
    hguard, -, hupdate, -, hbody, rfl⟩
  · exact hproduction _ _ _ _ h hs
  · obtain ⟨hinit, ht⟩ := hproduction _ _ _ _ hinit hs.advance.advance
    obtain ⟨hguard, hu⟩ := builds_condition hproduction _ _ _ hguard ht
    obtain ⟨hupdate, hv⟩ := hproduction _ _ _ _ hupdate hu.advance
    obtain ⟨hloop, hs'⟩ := builds_loopBody hstatement _ _ _ hbody hv.advance
    have hrest := List.forall_mem_cons.2 ⟨hguard, List.forall_mem_cons.2 ⟨hupdate, hloop⟩⟩
    exact ⟨Stmt.throughout_iff.2 ⟨trivial, List.forall_mem_cons.2 ⟨hinit, hrest⟩⟩, hs'⟩

theorem builds_whileRule :
    (whileRule production statement).Builds isName (Stmt.Built isName) := by
  intro s stmt s' h hs
  rcases gives_whileRule h with ⟨-, h⟩ | ⟨-, guard, t, body, fallback, hguard, hbody, rfl⟩
  · exact hproduction _ _ _ _ h hs
  · obtain ⟨hguard, ht⟩ := builds_condition hproduction _ _ _ hguard hs.advance
    obtain ⟨hloop, hs'⟩ := builds_loopBody hstatement _ _ _ hbody ht
    exact ⟨Stmt.throughout_iff.2 ⟨trivial, List.forall_mem_cons.2 ⟨hguard, hloop⟩⟩, hs'⟩

theorem builds_loopRule :
    (loopRule production statement).Builds isName (Stmt.Built isName) := by
  intro s stmt s' h hs
  rcases gives_loopRule h with ⟨-, h⟩ | ⟨-, body, fallback, hbody, rfl⟩
  · exact hproduction _ _ _ _ h hs
  · obtain ⟨hloop, hs'⟩ := builds_loopBody hstatement _ _ _ hbody hs.advance
    exact ⟨Stmt.throughout_iff.2 ⟨trivial, hloop⟩, hs'⟩

theorem builds_parenthesisRule :
    (parenthesisRule production statement).Builds isName
      (Stmt.Built isName) := by
  intro s stmt s' h hs
  rcases gives_parenthesisRule h with ⟨-, h⟩ | ⟨-, e, t, he, -, rfl, rfl⟩
  · exact hproduction _ _ _ _ h hs
  · obtain ⟨hbuilt, ht⟩ := hstatement _ _ _ he hs.advance
    exact ⟨hbuilt, ht.advance⟩

end Rules

/-- What a rule of a dialect gives is well built, provided this is so for the productions and
statements inside. -/
theorem builds_rule {d : Dialect} {p : Production} {rule : Rule}
    (hrule : d.grammar.rule? p = some rule)
    (hproduction : ∀ p, (production p).Builds isName (Stmt.Built isName))
    (hstatement : statement.Builds isName (Stmt.Built isName)) :
    (rule.parse production statement).Builds isName (Stmt.Built isName) := by
  cases rule with
  | conditional => exact builds_conditionalRule hproduction hstatement
  | forLoop => exact builds_forRule hproduction hstatement
  | whileLoop => exact builds_whileRule hproduction hstatement
  | loop => exact builds_loopRule hproduction hstatement
  | jump target => exact builds_jumpRule hproduction target
  | declaration => exact builds_declarationRule hproduction
  | assignment => exact builds_assignmentRule hproduction
  | forward target => exact hproduction target
  | level whole operand operators =>
    exact builds_levelRule hproduction (Dialect.operators_of_level hrule)
  | unary => exact builds_unaryRule hproduction
  | parenthesis => exact builds_parenthesisRule hproduction hstatement
  | leaf kind read otherwise =>
    intro s stmt s' h hs
    rcases gives_leafRule h with ⟨-, h⟩ | ⟨hkind, e, hread, rfl, rfl⟩
    · exact hproduction _ _ _ _ h hs
    · refine ⟨?_, hs.advance⟩
      rcases Dialect.plain_of_leaf hrule hread with ⟨rfl, rfl⟩ | hliteral
      · exact Stmt.throughout_iff.2 ⟨hs.here hkind, nofun⟩
      · exact Expr.wellBuilt_of_isLiteral hliteral
  | number =>
    intro s stmt s' h hs
    obtain ⟨-, e, hread, rfl, rfl⟩ := gives_numberRule h
    obtain ⟨value, -, rfl⟩ := exists_of_readNumber hread
    exact ⟨Expr.wellBuilt_of_isLiteral rfl, hs.advance⟩

end Parse

/-! ### Programs -/

namespace Dialect

open Parse

variable {isName : String → Prop}

theorem builds_production (d : Dialect) (p : Production) :
    (d.grammar.production p).Builds isName (Stmt.Built isName) := by
  intro s stmt s' h
  refine d.grammar.gives_induction
    (motive := fun s stmt s' => s.Names isName → stmt.Built isName ∧ s'.Names isName) ?_ h
  exact fun _ _ hproduction hstatement _ _ hrule => builds_rule hrule hproduction hstatement

theorem builds_statement (d : Dialect) : d.grammar.statement.Builds isName (Stmt.Built isName) := by
  intro s stmt s' h
  obtain ⟨root, hroot⟩ := Grammar.gives_start h
  exact d.builds_production root s stmt s' hroot

/-- Every node of a program is well built, with the names that the identifiers among the tokens
have. -/
theorem wellBuilt_of_parse {d : Dialect} {tokens : List Token} {file : String}
    {program : List Stmt} (h : (d.parse tokens file).result = .ok program)
    (hnames : ∀ t ∈ tokens, t.kind = .identifier → isName t.value) :
    ∀ stmt ∈ program, stmt.Built isName := by
  obtain ⟨hall, -⟩ := givesAll_of_many (s := State.ofTokens tokens file) ⟨h, rfl⟩
  refine (built_of_givesAll d.builds_statement hall ?_).1
  intro t ht hkind
  -- An end mark may have been put behind the tokens, which is not an identifier.
  have hmem : t ∈ Cursor.close tokens file := Cursor.remaining_ofTokens tokens file ▸ ht
  unfold Cursor.close at hmem
  split at hmem
  · exact hnames t hmem hkind
  · rcases List.mem_append.1 hmem with hmem | hmem
    · exact hnames t hmem hkind
    · obtain rfl := List.mem_singleton.1 hmem
      cases hkind

end Dialect

end Cascade
