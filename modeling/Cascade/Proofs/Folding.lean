import Cascade.Proofs.Arithmetic
import Cascade.Folding.Inspect

/-!
# Folded expressions

An expression is folded if no operation in it can be carried out: no logical not stands in front of
a boolean, and every binary operation has an operand that is an identifier or an operation.  Folding
gives folded expressions and leaves them as they are, so it may be repeated at will.  It neither
drops nor moves an identifier, and the search for an identifier finds the first one.

## Main definitions

* `Expr.IsFolded` : no operation can be carried out.
* `Expr.identifiers` : the identifiers among the operands, from left to right.
* `Expr.OperandsFold` : the operands can be folded.

## Main results

* `Expr.fold_induction` : induction over a fold that succeeds.
* `Expr.fold_eq_self_iff` : the folded expressions are the fixed points of folding.
* `Expr.identifiers_of_fold` : folding keeps the identifiers.
* `Expr.inspect_of_isFolded`, `Expr.outcome_inspect_eq_ok_iff` : the search gives the first
  identifier.
-/

namespace Cascade

open Arithmetic (combine_binary64 fold_binary64)

/-- An operation with an unresolved operand is kept. -/
theorem result_combine_of_isUnresolved {left right : Expr} (operator : String)
    (h : left.isUnresolved = true ∨ right.isUnresolved = true) :
    (combine left operator right).result = .ok (.binary left operator right) := by
  rw [← combine_binary64]
  exact Arithmetic.combine_of_isUnresolved operator h

namespace Expr

/-! ### Folds that succeed -/

/-- The operand of a unary operation that folds. -/
theorem exists_of_fold_unary {operator : String} {term value : Expr}
    (h : (unary operator term).fold = .ok value) :
    ∃ t, term.fold = .ok t ∧ value = applyUnary operator t := by
  rw [← fold_binary64] at h ⊢
  exact Arithmetic.exists_of_fold_unary h

/-- The operands of a binary operation that folds. -/
theorem exists_of_fold_binary {left right value : Expr} {operator : String}
    (h : (binary left operator right).fold = .ok value) :
    ∃ l r, left.fold = .ok l ∧ right.fold = .ok r ∧ (combine l operator r).result = .ok value := by
  simp only [← fold_binary64, ← combine_binary64] at h ⊢
  exact Arithmetic.exists_of_fold_binary h

/-- Induction over a fold that succeeds: a leaf stays, a unary operator is applied to the folded
operand, and a binary operation is carried out on literals or kept. -/
theorem fold_induction {motive : Expr → Expr → Prop}
    (leaf : ∀ e : Expr, e.isContainer = false → motive e e)
    (unary : ∀ operator term t, motive term t →
      motive (.unary operator term) (applyUnary operator t))
    (literal : ∀ left operator right l r value, motive left l → motive right r →
      l.isLiteral = true → r.isLiteral = true → value.isLiteral = true →
      (combine l operator r).result = .ok value → motive (.binary left operator right) value)
    (kept : ∀ left operator right l r, motive left l → motive right r →
      (l.isUnresolved = true ∨ r.isUnresolved = true) →
      motive (.binary left operator right) (.binary l operator r))
    {e value : Expr} (h : e.fold = .ok value) : motive e value := by
  simp only [← combine_binary64] at literal
  rw [← fold_binary64] at h
  exact Arithmetic.fold_induction leaf unary literal kept h

/-! ### Fixed points of folding -/

/-- Whether no operation in the expression can be carried out. -/
def IsFolded : Expr → Prop
  | unary operator term => term.IsFolded ∧ (operator = "!" → ∀ value, term ≠ boolean value)
  | binary left _ right =>
    left.IsFolded ∧ right.IsFolded ∧ (left.isUnresolved = true ∨ right.isUnresolved = true)
  | _ => True

theorem isFolded_of_not_isContainer {e : Expr} (h : e.isContainer = false) : e.IsFolded := by
  cases e <;> simp_all [isContainer, IsFolded]

/-- A unary operator that cannot be carried out is kept. -/
theorem applyUnary_eq_self_iff {operator : String} {term : Expr} :
    applyUnary operator term = unary operator term ↔
      (operator = "!" → ∀ value, term ≠ boolean value) := by
  cases term <;> simp [applyUnary]

/-- A unary operator gives a folded expression on a folded operand. -/
theorem isFolded_applyUnary {operator : String} {term : Expr} (h : term.IsFolded) :
    (applyUnary operator term).IsFolded := by
  by_cases hkept : operator = "!" → ∀ value, term ≠ boolean value
  · rw [applyUnary_eq_self_iff.2 hkept]
    exact ⟨h, hkept⟩
  · push Not at hkept
    obtain ⟨rfl, value, rfl⟩ := hkept
    simp [applyUnary, IsFolded]

/-- Folding gives folded expressions. -/
theorem isFolded_of_fold {e value : Expr} (h : e.fold = .ok value) : value.IsFolded := by
  refine fold_induction (motive := fun _ value => value.IsFolded) ?_ ?_ ?_ ?_ h
  · exact fun e he => isFolded_of_not_isContainer he
  · exact fun operator term t ht => isFolded_applyUnary ht
  · intro _ _ _ l r value _ _ _ _ hv _
    exact isFolded_of_not_isContainer (isContainer_of_isLiteral hv)
  · exact fun _ _ _ l r hl hr hunresolved => ⟨hl, hr, hunresolved⟩

/-- Folding leaves folded expressions as they are. -/
theorem fold_of_isFolded {e : Expr} (h : e.IsFolded) : e.fold = .ok e := by
  induction e using skeleton_induction with
  | leaf e he => exact fold_of_not_isContainer he
  | unary operator term ih =>
    rw [fold_unary, ih h.1, Except.map, applyUnary_eq_self_iff.2 h.2]
  | binary left operator right ihl ihr =>
    obtain ⟨hl, hr, hunresolved⟩ := h
    rw [fold_binary, ihl hl, ihr hr]
    exact result_combine_of_isUnresolved operator hunresolved

/-- The folded expressions are the fixed points of folding. -/
theorem fold_eq_self_iff {e : Expr} : e.fold = .ok e ↔ e.IsFolded :=
  ⟨isFolded_of_fold, fold_of_isFolded⟩

/-- Folding twice is folding once. -/
theorem fold_of_fold {e value : Expr} (h : e.fold = .ok value) : value.fold = .ok value :=
  fold_of_isFolded (isFolded_of_fold h)

/-! ### Identifiers -/

/-- The identifiers among the operands of an expression, from left to right. -/
def identifiers : Expr → List String
  | identifier name => [name]
  | unary _ term => term.identifiers
  | binary left _ right => left.identifiers ++ right.identifiers
  | _ => []

theorem identifiers_of_not_isUnresolved {e : Expr} (h : e.isUnresolved = false) :
    e.identifiers = [] := by
  cases e <;> simp_all [isUnresolved, identifiers]

theorem identifiers_of_isLiteral {e : Expr} (h : e.isLiteral = true) : e.identifiers = [] :=
  identifiers_of_not_isUnresolved (isUnresolved_of_isLiteral h)

@[simp] theorem identifiers_applyUnary (operator : String) (term : Expr) :
    (applyUnary operator term).identifiers = term.identifiers := by
  cases term <;> simp only [applyUnary, identifiers]
  split <;> rfl

/-- Folding keeps every identifier in its place. -/
theorem identifiers_of_fold {e value : Expr} (h : e.fold = .ok value) :
    value.identifiers = e.identifiers := by
  refine fold_induction (motive := fun e value => value.identifiers = e.identifiers) ?_ ?_ ?_ ?_ h
  · exact fun e he => rfl
  · intro operator term t ht
    rw [identifiers_applyUnary, ht, identifiers]
  · intro left operator right l r value hl hr hll hrl hv _
    rw [identifiers_of_isLiteral hv, identifiers, ← hl, ← hr, identifiers_of_isLiteral hll,
      identifiers_of_isLiteral hrl, List.append_nil]
  · intro left operator right l r hl hr _
    rw [identifiers, identifiers, hl, hr]

/-! ### The search for an identifier -/

/-- Looking into a folded expression finds its first identifier and changes nothing. -/
theorem inspect_of_isFolded {e : Expr} (h : e.IsFolded) :
    e.inspect.outcome = .ok e.identifiers.head? ∧ e.inspect.after = e := by
  induction e using skeleton_induction with
  | leaf e he =>
    cases e <;> simp_all [isContainer, inspect, identifiers]
  | unary operator term ih =>
    obtain ⟨houtcome, hafter⟩ := ih h.1
    rw [inspect_unary, fold_of_isFolded h.1]
    exact ⟨houtcome, congrArg (unary operator) hafter⟩
  | binary left operator right ihl ihr =>
    obtain ⟨hl, hr, -⟩ := h
    obtain ⟨hlo, hla⟩ := ihl hl
    obtain ⟨hro, hra⟩ := ihr hr
    rw [inspect_binary, fold_of_isFolded hl, fold_of_isFolded hr]
    simp only [hlo, hla, identifiers, List.head?_append]
    cases left.identifiers.head? with
    | none => exact ⟨hro, by rw [hra]⟩
    | some name => exact ⟨rfl, rfl⟩

/-- Whether the operands of an operation can be folded. -/
def OperandsFold : Expr → Prop
  | unary _ term => ∃ t, term.fold = .ok t
  | binary left _ right => (∃ l, left.fold = .ok l) ∧ ∃ r, right.fold = .ok r
  | _ => True

/-- If the operands can be folded, the search gives the first identifier of the expression. -/
theorem outcome_inspect_of_operandsFold {e : Expr} (h : e.OperandsFold) :
    e.inspect.outcome = .ok e.identifiers.head? := by
  cases e with
  | unary operator term =>
    obtain ⟨t, ht⟩ := h
    rw [inspect_unary, ht, identifiers, ← identifiers_of_fold ht]
    exact (inspect_of_isFolded (isFolded_of_fold ht)).1
  | binary left operator right =>
    obtain ⟨⟨l, hl⟩, r, hr⟩ := h
    have hlo := (inspect_of_isFolded (isFolded_of_fold hl)).1
    have hro := (inspect_of_isFolded (isFolded_of_fold hr)).1
    rw [inspect_binary, hl, hr, identifiers, ← identifiers_of_fold hl, ← identifiers_of_fold hr,
      List.head?_append]
    simp only [hlo]
    cases l.identifiers.head? with
    | none => exact hro
    | some name => rfl
  | _ => simp [inspect, identifiers]

/-- The search ends with a fault if and only if an operand cannot be folded. -/
theorem outcome_inspect_eq_ok_iff {e : Expr} {found : Option String} :
    e.inspect.outcome = .ok found ↔ e.OperandsFold ∧ found = e.identifiers.head? := by
  constructor
  · intro h
    have hfold : e.OperandsFold := by
      cases e with
      | unary operator term =>
        rw [inspect_unary] at h
        cases ht : term.fold with
        | error fault => rw [ht] at h; cases h
        | ok t => exact ⟨t, ht⟩
      | binary left operator right =>
        rw [inspect_binary] at h
        cases hl : left.fold with
        | error fault => rw [hl] at h; cases h
        | ok l =>
          cases hr : right.fold with
          | error fault => rw [hl, hr] at h; cases h
          | ok r => exact ⟨⟨l, hl⟩, r, hr⟩
      | _ => trivial
    rw [outcome_inspect_of_operandsFold hfold] at h
    cases h
    exact ⟨hfold, rfl⟩
  · rintro ⟨hfold, rfl⟩
    exact outcome_inspect_of_operandsFold hfold

end Expr

end Cascade
