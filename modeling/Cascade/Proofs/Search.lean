import Mathlib.Logic.Relation
import Cascade.Proofs.Folding

/-!
# The search for an identifier in closed form

The search folds the operands of an operation in place and goes on in what they have become, where
it folds again.  All of this comes to the same as a single round of folding: the search gives the
first identifier of the operation as it was, every further round finds its operands folded already,
and what is left behind is the operation with its operands folded once.  Only the first round can
fail, and then it leaves behind the operands that were folded before.

## Main definitions

* `Expr.LooksInto` : the search in one expression goes on in another one.

## Main results

* `Expr.inspect_of_looksInto` : a search that another one goes on with neither fails nor changes
  anything.
* `Expr.inspect_folds_operands` : what the search gives and what it leaves behind.
-/

namespace Cascade.Expr

/-- The search in one expression goes on in another one.  It goes on in the right operand of
an operation only if there is no identifier in the left one. -/
inductive LooksInto : Expr → Expr → Prop
  | operand {operator : String} {term t : Expr} (h : term.fold = .ok t) :
      LooksInto (unary operator term) t
  | left {left right l r : Expr} {operator : String} (hl : left.fold = .ok l)
      (hr : right.fold = .ok r) : LooksInto (binary left operator right) l
  | right {left right l r : Expr} {operator : String} (hl : left.fold = .ok l)
      (hr : right.fold = .ok r) (hnone : l.inspect.outcome = .ok none) :
      LooksInto (binary left operator right) r

/-- The search goes on in folded expressions only. -/
theorem LooksInto.isFolded {e inner : Expr} (h : e.LooksInto inner) : inner.IsFolded := by
  cases h with
  | operand h => exact isFolded_of_fold h
  | left hl _ => exact isFolded_of_fold hl
  | right _ hr _ => exact isFolded_of_fold hr

/-- However far the search has gone, it goes on without a fault, finds the first identifier of what
it looks into and changes nothing there. -/
theorem inspect_of_looksInto {e inner : Expr} (h : Relation.TransGen LooksInto e inner) :
    inner.inspect.outcome = .ok inner.identifiers.head? ∧ inner.inspect.after = inner := by
  cases h with
  | single hstep => exact inspect_of_isFolded hstep.isFolded
  | tail _ hstep => exact inspect_of_isFolded hstep.isFolded

/-- A search that succeeds leaves behind the operation on its folded operand. -/
theorem after_inspect_unary {term t : Expr} (operator : String) (h : term.fold = .ok t) :
    (unary operator term).inspect.after = unary operator t := by
  rw [inspect_unary, h]
  exact congrArg (unary operator) (inspect_of_isFolded (isFolded_of_fold h)).2

/-- A search that succeeds leaves behind the operation on its folded operands, wherever it ended. -/
theorem after_inspect_binary {left right l r : Expr} (operator : String) (hl : left.fold = .ok l)
    (hr : right.fold = .ok r) :
    (binary left operator right).inspect.after = binary l operator r := by
  obtain ⟨houtcome, hla⟩ := inspect_of_isFolded (isFolded_of_fold hl)
  obtain ⟨-, hra⟩ := inspect_of_isFolded (isFolded_of_fold hr)
  rw [inspect_binary, hl, hr]
  simp only [houtcome, hla]
  cases l.identifiers.head? with
  | none => exact congrArg (binary l operator) hra
  | some name => rfl

/-- The search in an operation gives the first identifier among its operands as they were, and
leaves behind the operation on its operands folded once.  If an operand cannot be folded, the search
ends with its fault, and only a left operand in front of it has been folded.  No search that it
goes on with fails or changes anything further. -/
theorem inspect_folds_operands :
    (∀ (operator : String) (term : Expr),
      match term.fold with
      | .error fault =>
        (unary operator term).inspect.outcome = .error fault ∧
          (unary operator term).inspect.after = unary operator term
      | .ok t =>
        (unary operator term).inspect.outcome = .ok term.identifiers.head? ∧
          (unary operator term).inspect.after = unary operator t) ∧
    (∀ (left : Expr) (operator : String) (right : Expr),
      match left.fold, right.fold with
      | .error fault, _ =>
        (binary left operator right).inspect.outcome = .error fault ∧
          (binary left operator right).inspect.after = binary left operator right
      | .ok l, .error fault =>
        (binary left operator right).inspect.outcome = .error fault ∧
          (binary left operator right).inspect.after = binary l operator right
      | .ok l, .ok r =>
        (binary left operator right).inspect.outcome =
            .ok (left.identifiers.head?.or right.identifiers.head?) ∧
          (binary left operator right).inspect.after = binary l operator r) ∧
    ∀ e inner, Relation.TransGen LooksInto e inner →
      inner.inspect.outcome = .ok inner.identifiers.head? ∧ inner.inspect.after = inner := by
  refine ⟨fun operator term => ?_, fun left operator right => ?_,
    fun e inner h => inspect_of_looksInto h⟩
  · cases hterm : term.fold with
    | error fault =>
      rw [inspect_unary, hterm]
      exact ⟨rfl, rfl⟩
    | ok t =>
      exact ⟨outcome_inspect_of_operandsFold ⟨t, hterm⟩, after_inspect_unary operator hterm⟩
  · cases hleft : left.fold with
    | error fault =>
      rw [inspect_binary, hleft]
      exact ⟨rfl, rfl⟩
    | ok l =>
      cases hright : right.fold with
      | error fault =>
        rw [inspect_binary, hleft, hright]
        exact ⟨rfl, rfl⟩
      | ok r =>
        have houtcome := outcome_inspect_of_operandsFold (e := binary left operator right)
          ⟨⟨l, hleft⟩, r, hright⟩
        rw [identifiers, List.head?_append] at houtcome
        exact ⟨houtcome, after_inspect_binary operator hleft hright⟩

/-- A sum of strings on the right ends the search when the left operand is folded already. -/
theorem inspect_folds_operands_halfway :
    (binary (unary "!" (boolean true)) "&&" (binary (str "a") "+" (str "b"))).inspect.outcome =
        .error (.invalidOperands "+" "\"a\"" "\"b\"") ∧
      (binary (unary "!" (boolean true)) "&&" (binary (str "a") "+" (str "b"))).inspect.after =
        binary (boolean false) "&&" (binary (str "a") "+" (str "b")) := by
  have hleft : (unary "!" (boolean true)).fold = .ok (boolean false) := rfl
  have hright : (binary (str "a") "+" (str "b")).fold =
      .error (.invalidOperands "+" "\"a\"" "\"b\"") := rfl
  have hsearch := inspect_folds_operands.2.1 (unary "!" (boolean true)) "&&"
    (binary (str "a") "+" (str "b"))
  rw [hleft, hright] at hsearch
  exact hsearch

end Cascade.Expr
