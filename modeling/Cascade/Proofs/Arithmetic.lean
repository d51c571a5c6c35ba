import Mathlib.Tactic.Common
import Cascade.Folding.Basic

/-!
# Folding over any arithmetic

Folding looks at numbers through a few operations only: it adds, subtracts, multiplies and divides
them, asks whether one is zero, and writes them down in its faults.  Here these operations are a
parameter.  With those of doubles the result is the folding of expressions; what is shown for any
choice of them therefore holds of it, and does not rest on how doubles are rounded.

## Main definitions

* `Arithmetic` : the operations on numbers that folding uses.
* `Arithmetic.combine`, `Arithmetic.fold` : folding over an arithmetic.
* `Arithmetic.binary64` : the arithmetic of doubles.

## Main results

* `Expr.skeleton_induction` : induction over the operations of an expression.
* `Arithmetic.fold_binary64` : over doubles it is the folding of expressions.
* `Arithmetic.combine_cases` : an operation is carried out on literals, or kept.
* `Arithmetic.fold_induction` : induction over a fold that succeeds.
-/

namespace Cascade

/-! ### Leaves and operations -/

namespace Expr

/-- A literal is not unresolved. -/
theorem isUnresolved_of_isLiteral {e : Expr} (h : e.isLiteral = true) : e.isUnresolved = false := by
  cases e <;> simp_all [isUnresolved, isLiteral]

/-- What is not unresolved is no operation. -/
theorem isContainer_of_not_isUnresolved {e : Expr} (h : e.isUnresolved = false) :
    e.isContainer = false := by
  cases e <;> simp_all [isContainer, isUnresolved]

/-- A literal is no operation. -/
theorem isContainer_of_isLiteral {e : Expr} (h : e.isLiteral = true) : e.isContainer = false :=
  isContainer_of_not_isUnresolved (isUnresolved_of_isLiteral h)

/-- Induction over the operations of an expression; everything else is a leaf. -/
@[elab_as_elim] theorem skeleton_induction {motive : Expr → Prop}
    (leaf : ∀ e : Expr, e.isContainer = false → motive e)
    (unary : ∀ operator term, motive term → motive (.unary operator term))
    (binary : ∀ left operator right, motive left → motive right →
      motive (.binary left operator right)) : (e : Expr) → motive e
  | .unary operator term => unary operator term (skeleton_induction leaf unary binary term)
  | .binary left operator right =>
    binary left operator right (skeleton_induction leaf unary binary left)
      (skeleton_induction leaf unary binary right)
  | .identifier _ | .number _ | .boolean _ | .char _ | .str _ | .loop _ _ | .whileLoop _ _ _
  | .forLoop _ _ _ _ _ | .jump _ | .conditional _ => leaf _ rfl

end Expr

/-! ### Operations on numbers as a parameter -/

/-- What folding asks of numbers, as plain data.  Nothing is assumed of it. -/
structure Arithmetic where
  add : Float → Float → Float
  sub : Float → Float → Float
  mul : Float → Float → Float
  div : Float → Float → Float
  /-- Whether a number is refused as a divisor. -/
  isZero : Float → Bool
  /-- Whether a number counts as true. -/
  isTrue : Float → Bool
  /-- How a dividend is written in a fault. -/
  text : Float → String
  /-- How an operand, with the numbers in it, is written in a fault. -/
  outline : Expr → String

namespace Arithmetic

section AnyArithmetic

variable (A : Arithmetic)

/-- The truth value of a literal that has one. -/
def truth? : Expr → Option Bool
  | .number value => some (A.isTrue value)
  | .boolean value => some value
  | _ => none

/-- An operation on two numbers. -/
def combineNumbers (left : Float) (operator : String) (right : Float) : Except Fault Expr :=
  match operator with
  | "+" => .ok (.number (A.add left right))
  | "-" => .ok (.number (A.sub left right))
  | "*" => .ok (.number (A.mul left right))
  | "/" =>
    if A.isZero right then .error (.divisionByZero (A.text left))
    else .ok (.number (A.div left right))
  | "&&" => .ok (.boolean (A.isTrue left && A.isTrue right))
  | "||" => .ok (.boolean (A.isTrue left || A.isTrue right))
  | _ => .error (.invalidOperator operator NodeKind.number.name NodeKind.number.name)

/-- An operation on operands that are not both numbers. -/
def combineOthers (left : Expr) (operator : String) (right : Expr) : Except Fault Expr :=
  match A.truth? left, A.truth? right with
  | some p, some q => combineTruths left operator right p q
  | _, _ =>
    if left.isUnresolved || right.isUnresolved then .ok (.binary left operator right)
    else .error (.invalidOperands operator (A.outline left) (A.outline right))

/-- An operation on folded operands. -/
def combine (left : Expr) (operator : String) (right : Expr) : Except Fault Expr :=
  match left, right with
  | .number a, .number b => A.combineNumbers a operator b
  | _, _ => A.combineOthers left operator right

/-- The expression with every known operation carried out, or the first fault on the way. -/
def fold : Expr → Except Fault Expr
  | .unary operator term => (fold term).map (applyUnary operator)
  | .binary left operator right =>
    (fold left).bind fun l => (fold right).bind fun r => A.combine l operator r
  | other => .ok other

/-! ### One operation -/

variable {A}

/-- A truth value is known of literals only. -/
theorem isLiteral_of_truth? {e : Expr} {p : Bool} (h : A.truth? e = some p) :
    e.isLiteral = true := by
  cases e <;> simp_all [truth?, Expr.isLiteral]

/-- What is unresolved has no truth value. -/
theorem truth?_of_isUnresolved {e : Expr} (h : e.isUnresolved = true) : A.truth? e = none := by
  cases e <;> simp_all [truth?, Expr.isUnresolved]

/-- An operation on two numbers gives a literal, if it gives anything. -/
theorem isLiteral_of_combineNumbers {a b : Float} {operator : String} {value : Expr}
    (h : A.combineNumbers a operator b = .ok value) : value.isLiteral = true := by
  unfold combineNumbers at h
  split at h
  case h_4 =>
    split at h
    · simp at h
    · cases h
      rfl
  all_goals cases h <;> rfl

/-- An operation with an unresolved operand is kept. -/
theorem combine_of_isUnresolved {left right : Expr} (operator : String)
    (h : left.isUnresolved = true ∨ right.isUnresolved = true) :
    A.combine left operator right = .ok (.binary left operator right) := by
  have hkeep : A.combineOthers left operator right = .ok (.binary left operator right) := by
    unfold combineOthers
    split
    · rename_i hp hq
      rcases h with h | h
      · rw [truth?_of_isUnresolved h] at hp
        cases hp
      · rw [truth?_of_isUnresolved h] at hq
        cases hq
    · rw [if_pos (by simpa using h)]
  unfold combine
  split
  · rcases h with h | h <;> simp [Expr.isUnresolved] at h
  · exact hkeep

/-- An operation is either carried out on literals, or kept because of an unresolved operand. -/
theorem combine_cases {left right value : Expr} {operator : String}
    (h : A.combine left operator right = .ok value) :
    (left.isLiteral = true ∧ right.isLiteral = true ∧ value.isLiteral = true) ∨
      ((left.isUnresolved = true ∨ right.isUnresolved = true) ∧
        value = .binary left operator right) := by
  unfold combine at h
  split at h
  · exact .inl ⟨rfl, rfl, isLiteral_of_combineNumbers h⟩
  · unfold combineOthers at h
    split at h
    · rename_i hp hq
      refine .inl ⟨isLiteral_of_truth? hp, isLiteral_of_truth? hq, ?_⟩
      unfold combineTruths at h
      split at h <;> cases h <;> rfl
    · split at h
      · rename_i hunresolved
        cases h
        exact .inr ⟨by simpa using hunresolved, rfl⟩
      · cases h

/-- An operation is refused only if no operand is unresolved. -/
theorem not_isUnresolved_of_combine_error {left right : Expr} {operator : String} {fault : Fault}
    (h : A.combine left operator right = .error fault) :
    left.isUnresolved = false ∧ right.isUnresolved = false := by
  have hkept : ¬(left.isUnresolved = true ∨ right.isUnresolved = true) := by
    intro hor
    rw [combine_of_isUnresolved operator hor] at h
    cases h
  simpa using hkept

/-! ### Folding -/

/-- An expression that is no operation is its own folded form. -/
theorem fold_of_not_isContainer {e : Expr} (h : e.isContainer = false) : A.fold e = .ok e := by
  cases e <;> simp_all [Expr.isContainer, fold]

/-- The operand of a unary operation that folds. -/
theorem exists_of_fold_unary {operator : String} {term value : Expr}
    (h : A.fold (.unary operator term) = .ok value) :
    ∃ t, A.fold term = .ok t ∧ value = applyUnary operator t := by
  rw [fold] at h
  cases ht : A.fold term with
  | error fault => rw [ht] at h; cases h
  | ok t => rw [ht] at h; cases h; exact ⟨t, rfl, rfl⟩

/-- The operands of a binary operation that folds. -/
theorem exists_of_fold_binary {left right value : Expr} {operator : String}
    (h : A.fold (.binary left operator right) = .ok value) :
    ∃ l r, A.fold left = .ok l ∧ A.fold right = .ok r ∧ A.combine l operator r = .ok value := by
  rw [fold] at h
  cases hl : A.fold left with
  | error fault => rw [hl] at h; cases h
  | ok l =>
    cases hr : A.fold right with
    | error fault => rw [hl, hr] at h; cases h
    | ok r => rw [hl, hr] at h; exact ⟨l, r, rfl, rfl, h⟩

/-- Induction over a fold that succeeds: a leaf stays, a unary operator is applied to the folded
operand, and a binary operation is carried out on literals or kept. -/
theorem fold_induction {motive : Expr → Expr → Prop}
    (leaf : ∀ e : Expr, e.isContainer = false → motive e e)
    (unary : ∀ operator term t, motive term t →
      motive (.unary operator term) (applyUnary operator t))
    (literal : ∀ left operator right l r value, motive left l → motive right r →
      l.isLiteral = true → r.isLiteral = true → value.isLiteral = true →
      A.combine l operator r = .ok value → motive (.binary left operator right) value)
    (kept : ∀ left operator right l r, motive left l → motive right r →
      (l.isUnresolved = true ∨ r.isUnresolved = true) →
      motive (.binary left operator right) (.binary l operator r))
    {e value : Expr} (h : A.fold e = .ok value) : motive e value := by
  induction e using Expr.skeleton_induction generalizing value with
  | leaf e he =>
    rw [fold_of_not_isContainer he] at h
    cases h
    exact leaf e he
  | unary operator term ih =>
    obtain ⟨t, ht, rfl⟩ := exists_of_fold_unary h
    exact unary operator term t (ih ht)
  | binary left operator right ihl ihr =>
    obtain ⟨l, r, hl, hr, hvalue⟩ := exists_of_fold_binary h
    rcases combine_cases hvalue with ⟨hll, hrl, hv⟩ | ⟨hunresolved, rfl⟩
    · exact literal left operator right l r value (ihl hl) (ihr hr) hll hrl hv hvalue
    · exact kept left operator right l r (ihl hl) (ihr hr) hunresolved

end AnyArithmetic

/-! ### Doubles -/

/-- The arithmetic of doubles. -/
def binary64 : Arithmetic where
  add a b := a + b
  sub a b := a - b
  mul a b := a * b
  div a b := a / b
  isZero a := a == 0.0
  isTrue a := a != 0.0
  text := Decimal.numberText
  outline e := e.outline 0

theorem truth?_binary64 : binary64.truth? = Expr.truth? := by
  funext e
  cases e <;> rfl

theorem combineOthers_binary64 (left : Expr) (operator : String) (right : Expr) :
    binary64.combineOthers left operator right = Cascade.combineOthers left operator right := by
  rw [combineOthers, truth?_binary64]
  rfl

/-- Over doubles, an operation on folded operands is the one of expressions. -/
theorem combine_binary64 (left : Expr) (operator : String) (right : Expr) :
    binary64.combine left operator right = (Cascade.combine left operator right).result := by
  rw [result_combine]
  unfold combine
  simp only [combineOthers_binary64]
  rfl

/-- Over doubles, folding is the folding of expressions. -/
theorem fold_binary64 (e : Expr) : binary64.fold e = e.fold := by
  induction e using Expr.skeleton_induction with
  | leaf e he => rw [fold_of_not_isContainer he, Expr.fold_of_not_isContainer he]
  | unary operator term ih => rw [fold, ih, Expr.fold_unary]
  | binary left operator right ihl ihr =>
    rw [fold, ihl, ihr, Expr.fold_binary]
    simp only [combine_binary64]

end Arithmetic

end Cascade
