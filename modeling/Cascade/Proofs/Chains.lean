import Mathlib.Tactic.Common
import Cascade.Proofs.Nodes

/-!
# Chains of branches

The branches of a conditional carry the index of the branch before them.  A chain that is put
together branch by branch has these links right whatever its branches are.  In a program there is
more to it: the first branch of a conditional has a condition and only the last one may lack it, so
the last branch alone tells whether there is a branch for all other cases.  This is so for every
conditional of a program, also for one that is an operand and goes through folding.

## Main definitions

* `Chain.ofBranches` : a chain that is put together branch by branch.
* `Chain.LinksBack` : each branch is linked to the one before it.
* `Chain.Complete` : the branches of a conditional, as a program has them.

## Main results

* `Chain.linksBack_push` : one more branch keeps the links right.
* `Chain.Linked.complete` : what a parser links is complete.
* `Dialect.chains_of_parse` : every conditional of a program is complete.
-/

namespace Cascade

namespace Chain

variable {chain : Chain}

/-- A chain that is put together from bodies and conditions, one branch after the other. -/
def ofBranches (branches : List (List Stmt × Option Expr)) : Chain :=
  branches.foldl (fun chain branch => chain.push branch.1 branch.2) []

/-- Whether each branch is linked to the one before it, and the first one to none. -/
structure LinksBack (chain : Chain) : Prop where
  first : ∀ branch, chain[0]? = some branch → branch.before = none
  next : ∀ i branch, chain[i + 1]? = some branch →
    branch.before = some i ∧ chain.before? (i + 1) = chain[i]?

/-- Whether a chain is a whole conditional: it begins with a condition, its branches are linked one
to the other, and only the last one may lack a condition, which is then the branch for all other
cases. -/
structure Complete (chain : Chain) : Prop where
  linksBack : chain.LinksBack
  guarded : ∃ branch, chain[0]? = some branch ∧ branch.condition ≠ none
  last : ∀ i branch, chain[i]? = some branch → branch.condition = none → i + 1 = chain.length
  hasElse_iff : chain.hasElse = true ↔ ∃ branch ∈ chain, branch.condition = none

theorem linksBack_nil : LinksBack [] :=
  ⟨nofun, nofun⟩

/-- The links are right if they hold the right indices. -/
theorem linksBack_of_before
    (h : ∀ i branch, chain[i]? = some branch →
      branch.before = if i = 0 then none else some (i - 1)) : chain.LinksBack := by
  refine ⟨fun branch => h 0 branch, fun i branch hbranch => ?_⟩
  have hbefore : branch.before = some i := h (i + 1) branch hbranch
  refine ⟨hbefore, ?_⟩
  simp only [before?, hbranch, hbefore, Option.bind_eq_bind, Option.bind_some]

theorem LinksBack.before_eq (h : chain.LinksBack) {i : Nat} {branch : Branch}
    (hbranch : chain[i]? = some branch) :
    branch.before = if i = 0 then none else some (i - 1) := by
  cases i with
  | zero => exact h.first branch hbranch
  | succ i => exact (h.next i branch hbranch).1

/-- One more branch keeps the links right. -/
theorem linksBack_push (h : chain.LinksBack) (body : List Stmt) (condition : Option Expr) :
    (chain.push body condition).LinksBack := by
  refine linksBack_of_before fun i branch hbranch => ?_
  rw [push] at hbranch
  rcases Nat.lt_or_ge i chain.length with hi | hi
  · rw [List.getElem?_append_left hi] at hbranch
    exact h.before_eq hbranch
  · rw [List.getElem?_append_right hi, List.getElem?_singleton] at hbranch
    split at hbranch
    · obtain rfl : i = chain.length := by omega
      cases hbranch
      rfl
    · cases hbranch

/-- A chain that is put together branch by branch has the right links. -/
theorem linksBack_ofBranches (branches : List (List Stmt × Option Expr)) :
    (ofBranches branches).LinksBack := by
  have hfold : ∀ chain : Chain, chain.LinksBack →
      (branches.foldl (fun chain branch => chain.push branch.1 branch.2) chain).LinksBack := by
    induction branches with
    | nil => exact fun _ h => h
    | cons branch branches ih => exact fun _ h => ih _ (linksBack_push h branch.1 branch.2)
  exact hfold [] linksBack_nil

end Chain

/-- A branch of some that follow each other is linked to the one before it, and has a condition
unless it is the last one. -/
theorem Branch.LinkedFrom.of_getElem? {index i : Nat} {branches : List Branch} {branch : Branch}
    (h : LinkedFrom index branches) (hbranch : branches[i]? = some branch) :
    branch.before = (if index + i = 0 then none else some (index + i - 1)) ∧
      (branch.condition = none → index + i ≠ 0 ∧ i + 1 = branches.length) := by
  induction branches generalizing index i with
  | nil => cases hbranch
  | cons first branches ih =>
    obtain ⟨hbefore, hlast, hrest⟩ := h
    cases i with
    | zero =>
      cases hbranch
      refine ⟨hbefore, fun hnone => ?_⟩
      obtain ⟨hindex, rfl⟩ := hlast hnone
      exact ⟨hindex, rfl⟩
    | succ i =>
      obtain ⟨hbefore, hlast⟩ := ih hrest hbranch
      rw [Nat.add_assoc, Nat.add_comm 1] at hbefore hlast
      exact ⟨hbefore, fun hnone => ⟨(hlast hnone).1, congrArg (· + 1) (hlast hnone).2⟩⟩

namespace Chain

variable {chain : Chain}

/-- A branch of a linked chain is linked to the one before it, and has a condition unless it is the
last one. -/
theorem Linked.of_getElem? (h : chain.Linked) {i : Nat} {branch : Branch}
    (hbranch : chain[i]? = some branch) :
    branch.before = (if i = 0 then none else some (i - 1)) ∧
      (branch.condition = none → i ≠ 0 ∧ i + 1 = chain.length) := by
  have hlinked := h.2.of_getElem? hbranch
  rwa [Nat.zero_add] at hlinked

/-- The last branch of a linked chain is the only one that can lack a condition. -/
theorem Linked.hasElse_iff (h : chain.Linked) :
    chain.hasElse = true ↔ ∃ branch ∈ chain, branch.condition = none := by
  have hlast := List.getLast?_eq_some_getLast h.1
  rw [hasElse, hlast]
  constructor
  · intro hnone
    exact ⟨_, List.getLast_mem h.1, Option.isNone_iff_eq_none.1 hnone⟩
  · rintro ⟨branch, hmem, hnone⟩
    obtain ⟨i, hi⟩ := List.getElem?_of_mem hmem
    have hend := ((h.of_getElem? hi).2 hnone).2
    rw [List.getLast?_eq_getElem?, ← hend, Nat.add_sub_cancel, hi] at hlast
    rw [← Option.some.inj hlast]
    exact Option.isNone_iff_eq_none.2 hnone

/-- What a parser links is a whole conditional. -/
theorem Linked.complete (h : chain.Linked) : chain.Complete := by
  refine ⟨linksBack_of_before fun i branch hbranch => (h.of_getElem? hbranch).1, ?_, ?_,
    h.hasElse_iff⟩
  · obtain ⟨first, rest, rfl⟩ := List.exists_cons_of_ne_nil h.1
    have hfirst : (first :: rest)[0]? = some first := rfl
    exact ⟨first, hfirst, fun hnone => ((h.of_getElem? hfirst).2 hnone).1 rfl⟩
  · exact fun i branch hbranch hnone => ((h.of_getElem? hbranch).2 hnone).2

end Chain

namespace Dialect

/-- Every conditional of a program is whole and has its branches linked one to the other.  The links
are right in any chain that is put together branch by branch. -/
theorem chains_of_parse (d : Dialect) (tokens : List Token) (file : String) (program : List Stmt)
    (h : (d.parse tokens file).result = .ok program)
    (branches : List (List Stmt × Option Expr)) :
    (∀ stmt ∈ program, ∀ chain : Chain, (Stmt.expr (.conditional chain)).Within stmt →
        chain.Complete) ∧
      (Chain.ofBranches branches).LinksBack := by
  refine ⟨fun stmt hstmt chain hwithin => ?_, Chain.linksBack_ofBranches branches⟩
  have hbuilt : stmt.Built fun _ => True := wellBuilt_of_parse h (fun _ _ _ => trivial) stmt hstmt
  have hlinked : chain.Linked := hbuilt _ hwithin
  exact hlinked.complete

/-- The negation of a conditional with three branches, each of them empty. -/
def chainTokens : List Token :=
  [.bare .unaryOperator "!", .bare .openParen "(", .bare .kwIf "if", .bare .identifier "a",
   .bare .openCurly "\x7b", .bare .closeCurly "\x7d", .bare .kwElse "else", .bare .kwIf "if",
   .bare .identifier "b", .bare .openCurly "\x7b", .bare .closeCurly "\x7d", .bare .kwElse "else",
   .bare .openCurly "\x7b", .bare .closeCurly "\x7d", .bare .closeParen ")",
   .bare .semicolon ";"]

set_option maxRecDepth 2000 in
/-- The branches of a conditional that is an operand. -/
theorem chains_of_parse_operand :
    ∃ chain : Chain, (full.parse chainTokens "").result =
        .ok [.expr (.unary "!" (.conditional chain))] ∧
      chain.map Branch.before = [none, some 0, some 1] ∧ chain.hasElse = true ∧ chain.Complete ∧
      (Chain.ofBranches [([], none), ([], none)]).LinksBack := by
  have hresult : (full.parse chainTokens "").result =
      .ok [.expr (.unary "!" (.conditional [.mk (some (.identifier "a")) none [],
        .mk (some (.identifier "b")) (some 0) [], .mk none (some 1) []]))] := by
    cbv
  obtain ⟨hchains, hlinks⟩ :=
    chains_of_parse full chainTokens "" _ hresult [([], none), ([], none)]
  refine ⟨_, hresult, rfl, rfl, ?_, hlinks⟩
  exact hchains _ (List.mem_singleton_self _) _ (.child (List.mem_singleton_self _) (.refl _))

end Dialect

end Cascade
