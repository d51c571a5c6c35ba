import Cascade.Proofs.Folding

/-!
# Folding and substitution

Expressions may be put in place of the identifiers of an expression, as a later stage does once it
knows what the variables stand for.  Folding before that makes no difference: the result is the
same, fault or value, as if the expression had been left alone.  This is so over any arithmetic,
that of doubles among them.

## Main definitions

* `Expr.subst` : the expression with an expression in place of each identifier.

## Main results

* `Arithmetic.fold_subst_of_fold` : folding first does not change what a substitution gives.
* `Arithmetic.exists_fold_subst_eq_error` : folding does not refuse what some substitution makes
  acceptable.
* `Arithmetic.fold_before_subst` : both, and that they speak of the folding of expressions.
-/

namespace Cascade

namespace Expr

/-- The expression with an expression in place of each identifier among its operands.  Literals,
loops, conditionals and jumps are left alone. -/
def subst (σ : String → Expr) : Expr → Expr
  | identifier name => σ name
  | unary operator term => unary operator (term.subst σ)
  | binary left operator right => binary (left.subst σ) operator (right.subst σ)
  | other => other

/-- There is nothing to put into an expression that is neither an identifier nor an operation. -/
theorem subst_of_not_isUnresolved (σ : String → Expr) {e : Expr} (h : e.isUnresolved = false) :
    e.subst σ = e := by
  cases e <;> simp_all [isUnresolved, subst]

end Expr

namespace Arithmetic

variable {A : Arithmetic} (σ : String → Expr)

/-- What a substitution does not reach is folded as before. -/
theorem fold_subst_of_not_isUnresolved {e : Expr} (h : e.isUnresolved = false) :
    A.fold (e.subst σ) = .ok e := by
  rw [Expr.subst_of_not_isUnresolved σ h]
  exact fold_of_not_isContainer (Expr.isContainer_of_not_isUnresolved h)

/-- A substitution into an applied unary operator reaches its operand. -/
theorem fold_subst_applyUnary (operator : String) (term : Expr) :
    A.fold ((applyUnary operator term).subst σ) =
      (A.fold (term.subst σ)).map (applyUnary operator) := by
  by_cases hkept : operator = "!" → ∀ value, term ≠ .boolean value
  · rw [Expr.applyUnary_eq_self_iff.2 hkept, Expr.subst, fold]
  · push Not at hkept
    obtain ⟨rfl, value, rfl⟩ := hkept
    rfl

/-- Folding an expression first does not change what a substitution gives. -/
theorem fold_subst_of_fold {e value : Expr} (h : A.fold e = .ok value) :
    A.fold (e.subst σ) = A.fold (value.subst σ) := by
  refine fold_induction (motive := fun e value => A.fold (e.subst σ) = A.fold (value.subst σ))
    ?_ ?_ ?_ ?_ h
  · exact fun e _ => rfl
  · intro operator term t ht
    rw [fold_subst_applyUnary, Expr.subst, fold, ht]
  · -- The operands became literals, so no substitution can reach the operation.
    intro left operator right l r value hl hr hll hrl hv hvalue
    have hlσ := fold_subst_of_not_isUnresolved (A := A) σ (Expr.isUnresolved_of_isLiteral hll)
    have hrσ := fold_subst_of_not_isUnresolved (A := A) σ (Expr.isUnresolved_of_isLiteral hrl)
    rw [fold_subst_of_not_isUnresolved σ (Expr.isUnresolved_of_isLiteral hv), Expr.subst, fold, hl,
      hr, hlσ, hrσ]
    exact hvalue
  · intro left operator right l r hl hr _
    rw [Expr.subst, Expr.subst, fold, fold, hl, hr]

/-- An expression that cannot be folded cannot be folded after a substitution either. -/
theorem exists_fold_subst_eq_error {e : Expr} {fault : Fault} (h : A.fold e = .error fault) :
    ∃ fault₁, A.fold (e.subst σ) = .error fault₁ := by
  induction e using Expr.skeleton_induction generalizing fault with
  | leaf e he =>
    rw [fold_of_not_isContainer he] at h
    cases h
  | unary operator term ih =>
    rw [fold] at h
    cases ht : A.fold term with
    | ok t => rw [ht] at h; cases h
    | error fault₁ =>
      obtain ⟨fault₂, hσ⟩ := ih ht
      exact ⟨fault₂, by rw [Expr.subst, fold, hσ]; rfl⟩
  | binary left operator right ihl ihr =>
    rw [fold] at h
    rw [Expr.subst, fold]
    cases hl : A.fold left with
    | error fault₁ =>
      obtain ⟨fault₂, hσ⟩ := ihl hl
      exact ⟨fault₂, by rw [hσ]; rfl⟩
    | ok l =>
      cases hr : A.fold right with
      | error fault₁ =>
        obtain ⟨fault₂, hσ⟩ := ihr hr
        cases hlσ : A.fold (left.subst σ) with
        | error fault₃ => exact ⟨fault₃, rfl⟩
        | ok l' => exact ⟨fault₂, by rw [hσ]; rfl⟩
      | ok r =>
        -- The operation itself was refused, so its folded operands are out of reach.
        rw [hl, hr] at h
        obtain ⟨hlu, hru⟩ := not_isUnresolved_of_combine_error h
        refine ⟨fault, ?_⟩
        rw [fold_subst_of_fold σ hl, fold_subst_of_fold σ hr,
          fold_subst_of_not_isUnresolved σ hlu, fold_subst_of_not_isUnresolved σ hru]
        exact h

/-- Folding early never changes what a later stage computes that knows what the identifiers stand
for: it gives the same node or the same fault.  And an expression that is refused is refused
whatever its identifiers stand for.  Both hold whatever the operations on numbers give; with those
of doubles, they are about the folding of expressions. -/
theorem fold_before_subst :
    (∀ e : Expr, binary64.fold e = e.fold) ∧
      ∀ (A : Arithmetic) (σ : String → Expr) (e : Expr),
        match A.fold e with
        | .ok value => A.fold (e.subst σ) = A.fold (value.subst σ)
        | .error _ => ∃ fault, A.fold (e.subst σ) = .error fault := by
  refine ⟨fold_binary64, fun A σ e => ?_⟩
  cases h : A.fold e with
  | ok value => exact fold_subst_of_fold σ h
  | error fault => exact exists_fold_subst_eq_error σ h

end Arithmetic

end Cascade
