import Cascade.Folding.Basic

/-!
# Looking for an identifier

A value that depends on a variable shows it only once it is folded.  Looking into an expression
folds the operands of an operation in place, and goes on in what they have become, the left
operand first.  If an operand cannot be folded, the expression keeps what was folded before.

## Main definitions

* `Inspection` : an outcome, the expression afterwards, and the events.
* `Expr.inspect` : the first identifier in the operations of an expression.

## Main results

* `Expr.weight_le_of_fold` : folding adds no operation.
* `Expr.inspect_unary`, `Expr.inspect_binary` : the search goes on in the folded operands.
-/

namespace Cascade

/-- What looking into an expression gives. -/
structure Inspection (α : Type) where
  /-- The answer, or the fault that ended the search. -/
  outcome : Except Fault α
  /-- The expression afterwards. -/
  after : Expr
  /-- What happened, in order. -/
  events : List Event

namespace Expr

/-- The number of operations in an expression. -/
def weight : Expr → Nat
  | unary _ term => term.weight + 1
  | binary left _ right => left.weight + right.weight + 1
  | _ => 0

theorem weight_applyUnary_le (operator : String) (term : Expr) :
    (applyUnary operator term).weight ≤ term.weight + 1 := by
  cases term <;> simp only [applyUnary, weight]
  case boolean => split <;> simp [weight]
  all_goals exact Nat.le_refl _

theorem weight_of_combineNumbers {a b : Float} {operator : String} {value : Expr}
    (h : combineNumbers a operator b = .ok value) : value.weight = 0 := by
  unfold combineNumbers at h
  split at h
  case h_4 =>
    split at h
    · simp at h
    · cases h
      rfl
  all_goals cases h <;> rfl

theorem weight_le_of_combine {left right value : Expr} {operator : String}
    (h : (combine left operator right).result = .ok value) :
    value.weight ≤ left.weight + right.weight + 1 := by
  rw [result_combine] at h
  split at h
  · rw [weight_of_combineNumbers h]
    exact Nat.zero_le _
  · unfold combineOthers at h
    split at h
    · unfold combineTruths at h
      split at h <;> cases h <;> exact Nat.zero_le _
    · split at h
      · cases h
        exact Nat.le_refl _
      · simp at h

/-- Folding adds no operation. -/
theorem weight_le_of_fold : (e : Expr) → {r : Expr} → e.fold = .ok r → r.weight ≤ e.weight
  | unary operator term, r, h => by
    rw [fold_unary] at h
    cases ht : term.fold with
    | error fault => rw [ht] at h; cases h
    | ok t =>
      rw [ht] at h
      cases h
      have := weight_le_of_fold term ht
      have := weight_applyUnary_le operator t
      simp only [weight]
      omega
  | binary left operator right, r, h => by
    rw [fold_binary] at h
    cases hl : left.fold with
    | error fault => rw [hl] at h; cases h
    | ok l =>
      cases hr : right.fold with
      | error fault => rw [hl, hr] at h; cases h
      | ok r' =>
        rw [hl, hr] at h
        have := weight_le_of_fold left hl
        have := weight_le_of_fold right hr
        have := weight_le_of_combine h
        simp only [weight]
        omega
  | identifier _, _, h | number _, _, h | boolean _, _, h | char _, _, h | str _, _, h
  | loop _ _, _, h | whileLoop _ _ _, _, h | forLoop _ _ _ _ _, _, h | jump _, _, h
  | conditional _, _, h => by
    cases h
    exact Nat.le_refl _

/-- The first identifier in the operations of an expression, with the operands folded on the
way. -/
def inspect : Expr → Inspection (Option String)
  | identifier name => ⟨.ok (some name), identifier name, []⟩
  | unary operator term =>
    match _h : term.fold with
    | .error fault => ⟨.error fault, unary operator term, term.foldEvents⟩
    | .ok folded =>
      let inner := inspect folded
      ⟨inner.outcome, unary operator inner.after, term.foldEvents ++ inner.events⟩
  | binary left operator right =>
    match _hl : left.fold with
    | .error fault => ⟨.error fault, binary left operator right, left.foldEvents⟩
    | .ok l =>
      match _hr : right.fold with
      | .error fault =>
        ⟨.error fault, binary l operator right, left.foldEvents ++ right.foldEvents⟩
      | .ok r =>
        let events := left.foldEvents ++ right.foldEvents
        let onLeft := inspect l
        match onLeft.outcome with
        | .ok none =>
          let onRight := inspect r
          ⟨onRight.outcome, binary onLeft.after operator onRight.after,
            events ++ onLeft.events ++ onRight.events⟩
        | outcome => ⟨outcome, binary onLeft.after operator r, events ++ onLeft.events⟩
  | other => ⟨.ok none, other, []⟩
termination_by e => e.weight
decreasing_by
  · have := weight_le_of_fold term _h
    simp only [weight]
    omega
  · have := weight_le_of_fold left _hl
    simp only [weight]
    omega
  · have := weight_le_of_fold right _hr
    simp only [weight]
    omega

/-- Looking into a unary operation folds its operand and goes on in the folded operand. -/
theorem inspect_unary (operator : String) (term : Expr) :
    (unary operator term).inspect =
      match term.fold with
      | .error fault => ⟨.error fault, unary operator term, term.foldEvents⟩
      | .ok folded =>
        ⟨folded.inspect.outcome, unary operator folded.inspect.after,
          term.foldEvents ++ folded.inspect.events⟩ := by
  rw [inspect]
  split <;> rename_i h <;> simp only [h]

/-- Looking into a binary operation folds both operands first, and goes on in the right one only
if the left one has no identifier. -/
theorem inspect_binary (left : Expr) (operator : String) (right : Expr) :
    (binary left operator right).inspect =
      match left.fold, right.fold with
      | .error fault, _ => ⟨.error fault, binary left operator right, left.foldEvents⟩
      | .ok l, .error fault =>
        ⟨.error fault, binary l operator right, left.foldEvents ++ right.foldEvents⟩
      | .ok l, .ok r =>
        match l.inspect.outcome with
        | .ok none =>
          ⟨r.inspect.outcome, binary l.inspect.after operator r.inspect.after,
            left.foldEvents ++ right.foldEvents ++ l.inspect.events ++ r.inspect.events⟩
        | outcome =>
          ⟨outcome, binary l.inspect.after operator r,
            left.foldEvents ++ right.foldEvents ++ l.inspect.events⟩ := by
  rw [inspect]
  split
  · rename_i hl
    simp only [hl]
  · rename_i hl
    split <;> rename_i hr <;> simp only [hl, hr]

/-- An identifier is found at once. -/
@[simp] theorem inspect_identifier (name : String) :
    (identifier name).inspect = ⟨.ok (some name), identifier name, []⟩ := by
  rw [inspect]

/-- Nothing is found in an expression that is neither an identifier nor an operation. -/
theorem inspect_of_not_isUnresolved {e : Expr} (h : e.isUnresolved = false) :
    e.inspect = ⟨.ok none, e, []⟩ := by
  cases e <;> simp_all [isUnresolved, inspect]

end Expr

end Cascade
