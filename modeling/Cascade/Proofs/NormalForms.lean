import Cascade.Proofs.Folding

/-!
# Normal forms of folding

Whether an expression is folded can be told from its operations one by one, wherever they stand
among the operands.  Folding reaches such an expression in one pass: to fold the result again gives
the same node, and the identifiers stand in it as they stood before, none of them dropped, doubled
or moved.

## Main definitions

* `Expr.skeleton` : an expression and its operands, down to what is no operation.

## Main results

* `Expr.isFolded_iff_skeleton` : folded expressions told by their operations one by one.
* `Expr.fold_normalizes` : what folding gives, and what it leaves alone.
-/

namespace Cascade.Expr

/-- The expression itself and all that stands below its operations.  Literals, loops, conditionals
and jumps are not looked into. -/
def skeleton : Expr → List Expr
  | unary operator term => unary operator term :: term.skeleton
  | binary left operator right => binary left operator right :: (left.skeleton ++ right.skeleton)
  | other => [other]

theorem skeleton_of_not_isContainer {e : Expr} (h : e.isContainer = false) : e.skeleton = [e] := by
  cases e <;> simp_all [isContainer, skeleton]

/-- An expression is folded if nowhere in it a logical not stands in front of a boolean and every
binary operation has an operand that is an identifier or an operation. -/
theorem isFolded_iff_skeleton {e : Expr} :
    e.IsFolded ↔ (∀ value, unary "!" (boolean value) ∉ e.skeleton) ∧
      ∀ left operator right, binary left operator right ∈ e.skeleton →
        left.isUnresolved = true ∨ right.isUnresolved = true := by
  induction e using skeleton_induction with
  | leaf e he =>
    rw [skeleton_of_not_isContainer he]
    simp only [isFolded_of_not_isContainer he, List.mem_singleton, true_iff]
    constructor
    · rintro value rfl
      cases he
    · rintro left operator right rfl
      cases he
  | unary operator term ih =>
    have hhead : (∀ value, unary "!" (boolean value) ≠ unary operator term) ↔
        (operator = "!" → ∀ value, term ≠ boolean value) := by
      simp only [ne_eq, unary.injEq, not_and]
      exact ⟨fun h hop value hterm => h value hop.symm hterm.symm,
        fun h value hop hterm => h hop.symm value hterm.symm⟩
    simp only [IsFolded, ih, skeleton, List.mem_cons, not_or, forall_and, reduceCtorEq, false_or,
      ← hhead, ne_eq]
    tauto
  | binary left operator right ihl ihr =>
    simp only [IsFolded, ihl, ihr, skeleton, List.mem_cons, List.mem_append, not_or, forall_and,
      reduceCtorEq, not_false_eq_true, true_and, binary.injEq, or_imp]
    constructor
    · rintro ⟨⟨hnotl, hbinl⟩, ⟨hnotr, hbinr⟩, hunresolved⟩
      refine ⟨⟨hnotl, hnotr⟩, ?_, hbinl, hbinr⟩
      rintro _ _ _ ⟨rfl, rfl, rfl⟩
      exact hunresolved
    · rintro ⟨⟨hnotl, hnotr⟩, hhead, hbinl, hbinr⟩
      exact ⟨⟨hnotl, hbinl⟩, ⟨hnotr, hbinr⟩, hhead _ _ _ ⟨rfl, rfl, rfl⟩⟩

/-- What folding gives is left alone by folding, and has the same identifiers in the same order.
Exactly those expressions are left alone in which no logical not stands in front of a boolean and
every binary operation has an operand that is an identifier or an operation. -/
theorem fold_normalizes (e : Expr) :
    (∀ value, e.fold = .ok value →
      value.fold = .ok value ∧ value.identifiers = e.identifiers) ∧
    (e.fold = .ok e ↔
      (∀ value, unary "!" (boolean value) ∉ e.skeleton) ∧
        ∀ left operator right, binary left operator right ∈ e.skeleton →
          left.isUnresolved = true ∨ right.isUnresolved = true) := by
  refine ⟨fun value h => ⟨fold_of_fold h, identifiers_of_fold h⟩, ?_⟩
  rw [fold_eq_self_iff, isFolded_iff_skeleton]

/-- A logical operation with a literal on one side keeps the identifier on the other side, even
where the literal alone would decide. -/
theorem fold_normalizes_literal :
    (binary (unary "!" (boolean true)) "&&" (binary (identifier "a") "||" (boolean true))).fold =
      .ok (binary (boolean false) "&&" (binary (identifier "a") "||" (boolean true))) ∧
    (binary (boolean false) "&&" (binary (identifier "a") "||" (boolean true))).fold =
      .ok (binary (boolean false) "&&" (binary (identifier "a") "||" (boolean true))) ∧
    (binary (boolean false) "&&" (binary (identifier "a") "||" (boolean true))).identifiers =
      ["a"] := by
  have hfold : (binary (unary "!" (boolean true)) "&&"
      (binary (identifier "a") "||" (boolean true))).fold =
      .ok (binary (boolean false) "&&" (binary (identifier "a") "||" (boolean true))) := by
    rfl
  obtain ⟨hagain, hnames⟩ := (fold_normalizes _).1 _ hfold
  exact ⟨hfold, hagain, hnames⟩

end Cascade.Expr
