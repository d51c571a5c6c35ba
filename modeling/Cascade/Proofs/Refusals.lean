import Mathlib.Tactic.Common
import Cascade.Proofs.NormalForms

/-!
# What folding refuses

Folding fails only where a binary operation cannot be carried out on its folded operands: a number
is divided by zero, two numbers or booleans have no such operator, or the operands are not both
numbers or booleans although they are known.  Such an operation cannot hide behind another one, even
where a logical operation would be decided by its other operand.  If there are several of them, the
first one is reported, the operands in front of their operation and the left one first.

## Main definitions

* `Refused` : the operations that cannot be carried out, with their faults.
* `Expr.postorder` : an expression and its parts, each operation behind its operands.
* `Expr.breaks` : an operation that cannot be folded although its operands can.

## Main results

* `result_combine_eq_error_iff` : the operations that fail, and their faults.
* `Expr.find?_breaks_of_fold` : a fault comes from the first operation that breaks.
* `Expr.fold_masks_no_fault` : no part of a folded expression fails, and a fault is that of the
  first part that fails by itself.
-/

namespace Cascade

/-! ### Refused operations -/

/-- The operators that can be carried out on two literals that have truth values. -/
def operatorsOn : Expr → Expr → List String
  | .number _, .number _ => ["+", "-", "*", "/", "&&", "||"]
  | _, _ => ["&&", "||"]

/-- The operations on folded operands that cannot be carried out, with the faults they end in. -/
inductive Refused : Expr → String → Expr → Fault → Prop
  /-- A number is divided by zero. -/
  | zeroDivisor {a b : Float} (hzero : (b == 0.0) = true) :
      Refused (.number a) "/" (.number b) (.divisionByZero (Decimal.numberText a))
  /-- Two numbers or booleans have no such operator. -/
  | operator {left right : Expr} {operator : String} {p q : Bool} (hleft : left.truth? = some p)
      (hright : right.truth? = some q) (hoperator : operator ∉ operatorsOn left right) :
      Refused left operator right (.invalidOperator operator left.kind.name right.kind.name)
  /-- The operands are not both numbers or booleans, and they are known. -/
  | operands {left right : Expr} {operator : String}
      (htruth : left.truth? = none ∨ right.truth? = none) (hleft : left.isUnresolved = false)
      (hright : right.isUnresolved = false) :
      Refused left operator right (.invalidOperands operator (left.outline 0) (right.outline 0))

/-- An operation on two numbers fails if it is a division by zero or has no meaning. -/
theorem refused_of_combineNumbers {a b : Float} {operator : String} {fault : Fault}
    (h : combineNumbers a operator b = .error fault) :
    Refused (.number a) operator (.number b) fault := by
  unfold combineNumbers at h
  split at h
  case h_4 =>
    split at h
    · rename_i hzero
      cases h
      exact .zeroDivisor hzero
    · cases h
  case h_7 =>
    cases h
    exact .operator rfl rfl (by simp_all [operatorsOn])
  all_goals cases h

theorem refused_of_combineOthers {left right : Expr} {operator : String} {fault : Fault}
    (hothers : operatorsOn left right = ["&&", "||"])
    (h : combineOthers left operator right = .error fault) : Refused left operator right fault := by
  unfold combineOthers at h
  split at h
  · rename_i hleft hright
    unfold combineTruths at h
    split at h
    case h_3 =>
      cases h
      exact .operator hleft hright (by simp_all)
    all_goals cases h
  · rename_i hnone
    split at h
    · cases h
    · rename_i hresolved
      cases h
      simp only [Bool.or_eq_true, not_or, Bool.not_eq_true] at hresolved
      refine .operands ?_ hresolved.1 hresolved.2
      cases hleft : left.truth? with
      | none => exact .inl rfl
      | some p =>
        cases hright : right.truth? with
        | none => exact .inr rfl
        | some q => exact (hnone p q hleft hright).elim

/-- Two numbers or booleans without such an operator are refused with their kinds. -/
theorem combine_of_not_mem_operatorsOn {left right : Expr} {operator : String} {p q : Bool}
    (hleft : left.truth? = some p) (hright : right.truth? = some q)
    (hoperator : operator ∉ operatorsOn left right) :
    (combine left operator right).result =
      .error (.invalidOperator operator left.kind.name right.kind.name) := by
  rw [result_combine]
  split
  · simp only [operatorsOn, List.mem_cons, List.not_mem_nil, or_false, not_or] at hoperator
    unfold combineNumbers
    split <;> simp_all [Expr.kind]
  · have hlogical : operator ∉ ["&&", "||"] := by
      revert hoperator
      unfold operatorsOn
      split <;> simp
    simp only [List.mem_cons, List.not_mem_nil, or_false, not_or] at hlogical
    simp only [combineOthers, hleft, hright]
    unfold combineTruths
    split <;> simp_all

/-- Known operands that are not both numbers or booleans are refused with their outlines. -/
theorem combine_of_known {left right : Expr} {operator : String}
    (htruth : left.truth? = none ∨ right.truth? = none) (hleft : left.isUnresolved = false)
    (hright : right.isUnresolved = false) :
    (combine left operator right).result =
      .error (.invalidOperands operator (left.outline 0) (right.outline 0)) := by
  rw [result_combine]
  split
  · simp [Expr.truth?] at htruth
  · unfold combineOthers
    split
    · simp_all
    · rw [if_neg (by simp [hleft, hright])]

/-- The operations on folded operands that fail, and their faults. -/
theorem result_combine_eq_error_iff {left right : Expr} {operator : String} {fault : Fault} :
    (combine left operator right).result = .error fault ↔ Refused left operator right fault := by
  constructor
  · intro h
    rw [result_combine] at h
    split at h
    · exact refused_of_combineNumbers h
    · rename_i hnumbers
      refine refused_of_combineOthers ?_ h
      unfold operatorsOn
      split
      · exact (hnumbers _ _ rfl rfl).elim
      · rfl
  · intro h
    cases h with
    | zeroDivisor hzero => rw [result_combine]; simp [combineNumbers, hzero]
    | operator hleft hright hoperator => exact combine_of_not_mem_operatorsOn hleft hright hoperator
    | operands htruth hleft hright => exact combine_of_known htruth hleft hright

namespace Expr

/-! ### The first operation that breaks -/

/-- The operands of an operation. -/
def operands : Expr → List Expr
  | unary _ term => [term]
  | binary left _ right => [left, right]
  | _ => []

/-- The expression and all that stands below its operations, the operands in front of their
operation and the left one first. -/
def postorder : Expr → List Expr
  | unary operator term => term.postorder ++ [unary operator term]
  | binary left operator right =>
    left.postorder ++ (right.postorder ++ [binary left operator right])
  | other => [other]

/-- Whether the expression cannot be folded although its operands can. -/
def breaks (e : Expr) : Bool :=
  !e.fold.isOk && e.operands.all fun operand => operand.fold.isOk

theorem postorder_of_not_isContainer {e : Expr} (h : e.isContainer = false) :
    e.postorder = [e] := by
  cases e <;> simp_all [isContainer, postorder]

/-- The order of the parts does not matter for what they are. -/
theorem mem_postorder {e part : Expr} : part ∈ e.postorder ↔ part ∈ e.skeleton := by
  induction e using skeleton_induction with
  | leaf e he => rw [postorder_of_not_isContainer he, skeleton_of_not_isContainer he]
  | unary operator term ih =>
    simp only [postorder, skeleton, List.mem_append, List.mem_cons, List.not_mem_nil, or_false, ih]
    exact or_comm
  | binary left operator right ihl ihr =>
    simp only [postorder, skeleton, List.mem_append, List.mem_cons, List.not_mem_nil, or_false,
      ihl, ihr]
    tauto

/-- If an expression can be folded, so can all that stands below its operations. -/
theorem exists_fold_of_mem_skeleton {e value : Expr} (h : e.fold = .ok value) :
    ∀ part ∈ e.skeleton, ∃ folded, part.fold = .ok folded := by
  induction e using skeleton_induction generalizing value with
  | leaf e he =>
    intro part hpart
    rw [skeleton_of_not_isContainer he, List.mem_singleton] at hpart
    exact ⟨value, hpart ▸ h⟩
  | unary operator term ih =>
    obtain ⟨t, ht, -⟩ := exists_of_fold_unary h
    intro part hpart
    rcases List.mem_cons.1 hpart with rfl | hpart
    · exact ⟨value, h⟩
    · exact ih ht part hpart
  | binary left operator right ihl ihr =>
    obtain ⟨l, r, hl, hr, -⟩ := exists_of_fold_binary h
    intro part hpart
    rcases List.mem_cons.1 hpart with rfl | hpart
    · exact ⟨value, h⟩
    rcases List.mem_append.1 hpart with hpart | hpart
    · exact ihl hl part hpart
    · exact ihr hr part hpart

/-- Nothing breaks in an expression that can be folded. -/
theorem find?_breaks_eq_none {e value : Expr} (h : e.fold = .ok value) :
    e.postorder.find? breaks = none := by
  rw [List.find?_eq_none]
  intro part hpart
  obtain ⟨folded, hfolded⟩ := exists_fold_of_mem_skeleton h part (mem_postorder.1 hpart)
  simp [breaks, hfolded, Except.isOk, Except.toBool]

/-- An operation breaks if it is refused on its folded operands. -/
theorem breaks_binary {left right l r : Expr} {operator : String} {fault : Fault}
    (hl : left.fold = .ok l) (hr : right.fold = .ok r)
    (h : (combine l operator r).result = .error fault) :
    (binary left operator right).breaks = true := by
  have hfold : (binary left operator right).fold = .error fault := by
    rw [fold_binary, hl, hr]
    exact h
  simp [breaks, operands, hfold, hl, hr, Except.isOk, Except.toBool]

/-- A unary operation fails with its operand. -/
theorem fold_of_fold_unary_error {operator : String} {term : Expr} {fault : Fault}
    (h : (unary operator term).fold = .error fault) : term.fold = .error fault := by
  rw [fold_unary] at h
  cases hterm : term.fold with
  | error fault' => rw [hterm] at h; cases h; rfl
  | ok t => rw [hterm] at h; cases h

/-- A binary operation fails with its left operand, with its right one if the left one can be
folded, or else by itself. -/
theorem cases_of_fold_binary_error {left right : Expr} {operator : String} {fault : Fault}
    (h : (binary left operator right).fold = .error fault) :
    left.fold = .error fault ∨ ∃ l, left.fold = .ok l ∧
      (right.fold = .error fault ∨ ∃ r, right.fold = .ok r ∧
        (combine l operator r).result = .error fault) := by
  rw [fold_binary] at h
  cases hleft : left.fold with
  | error fault' => rw [hleft] at h; cases h; exact .inl rfl
  | ok l =>
    refine .inr ⟨l, rfl, ?_⟩
    cases hright : right.fold with
    | error fault' => rw [hleft, hright] at h; cases h; exact .inl rfl
    | ok r => rw [hleft, hright] at h; exact .inr ⟨r, rfl, h⟩

/-- A fault is that of the first operation that breaks, and this one is refused on its folded
operands. -/
theorem find?_breaks_of_fold {e : Expr} {fault : Fault} (h : e.fold = .error fault) :
    ∃ left operator right l r,
      e.postorder.find? breaks = some (binary left operator right) ∧
        left.fold = .ok l ∧ right.fold = .ok r ∧ (combine l operator r).result = .error fault := by
  induction e using skeleton_induction with
  | leaf e he =>
    rw [fold_of_not_isContainer he] at h
    cases h
  | unary operator term ih =>
    obtain ⟨left, op, right, l, r, hfind, hrest⟩ := ih (fold_of_fold_unary_error h)
    refine ⟨left, op, right, l, r, ?_, hrest⟩
    rw [postorder, List.find?_append, hfind]
    rfl
  | binary left operator right ihl ihr =>
    -- What comes before the first operation that breaks can be folded, so nothing is found there.
    rcases cases_of_fold_binary_error h with hleft | ⟨l, hleft, hright | ⟨r, hright, hrefused⟩⟩
    · obtain ⟨left', op, right', l', r', hfind, hrest⟩ := ihl hleft
      refine ⟨left', op, right', l', r', ?_, hrest⟩
      rw [postorder, List.find?_append, hfind]
      rfl
    · obtain ⟨left', op, right', l', r', hfind, hrest⟩ := ihr hright
      refine ⟨left', op, right', l', r', ?_, hrest⟩
      rw [postorder, List.find?_append, find?_breaks_eq_none hleft, List.find?_append, hfind]
      rfl
    · refine ⟨left, operator, right, l, r, ?_, hleft, hright, hrefused⟩
      rw [postorder, List.find?_append, find?_breaks_eq_none hleft, List.find?_append,
        find?_breaks_eq_none hright, List.find?_cons, breaks_binary hleft hright hrefused]
      rfl

/-- No context hides a fault.  If an expression can be folded, so can all that stands below its
operations, and nowhere is a number divided by zero.  If it cannot be folded, its fault is that of
the first part, each operation behind its operands and the left one first, which cannot be folded
although its operands can; and this part is a binary operation that is refused on its folded
operands. -/
theorem fold_masks_no_fault (e : Expr) :
    (∀ value, e.fold = .ok value →
      (∀ part ∈ e.skeleton, ∃ folded, part.fold = .ok folded) ∧
      ∀ left right a b, binary left "/" right ∈ e.skeleton → left.fold = .ok (number a) →
        right.fold = .ok (number b) → (b == 0.0) = false) ∧
    ∀ fault, e.fold = .error fault ↔
      ∃ left operator right l r,
        e.postorder.find? breaks = some (binary left operator right) ∧
          (binary left operator right).fold = .error fault ∧
          left.fold = .ok l ∧ right.fold = .ok r ∧ Refused l operator r fault := by
  refine ⟨fun value h => ⟨exists_fold_of_mem_skeleton h, ?_⟩, fun fault => ⟨fun h => ?_, ?_⟩⟩
  · intro left right a b hpart hleft hright
    obtain ⟨folded, hfolded⟩ := exists_fold_of_mem_skeleton h _ hpart
    by_contra hzero
    have hrefused : (combine (number a) "/" (number b)).result = _ :=
      result_combine_eq_error_iff.2 (.zeroDivisor (by simpa using hzero))
    rw [fold_binary, hleft, hright] at hfolded
    cases hrefused.symm.trans hfolded
  · obtain ⟨left, operator, right, l, r, hfind, hleft, hright, hrefused⟩ := find?_breaks_of_fold h
    refine ⟨left, operator, right, l, r, hfind, ?_, hleft, hright,
      result_combine_eq_error_iff.1 hrefused⟩
    rw [fold_binary, hleft, hright]
    exact hrefused
  · rintro ⟨left, operator, right, l, r, hfind, hfold, -⟩
    cases h : e.fold with
    | ok value => cases (find?_breaks_eq_none h).symm.trans hfind
    | error fault' =>
      -- The first operation that breaks is one and the same, and so is its fault.
      obtain ⟨left', operator', right', l', r', hfind', hleft', hright', hrefused'⟩ :=
        find?_breaks_of_fold h
      cases hfind'.symm.trans hfind
      rw [fold_binary, hleft', hright'] at hfold
      rw [← hfold]
      exact hrefused'.symm

/-- A division by zero is reported although the other operand would decide the conjunction. -/
theorem fold_masks_no_fault_conjunction :
    (binary (boolean false) "&&" (binary (number 5.0) "/" (number 0.0))).fold =
      .error (.divisionByZero "5") := by
  have hzero : ((0.0 : Float) == 0.0) = true := by decide +kernel
  have htext : Decimal.numberText 5.0 = "5" := by decide +kernel
  have hrefused : Refused (number 5.0) "/" (number 0.0) (.divisionByZero "5") :=
    htext ▸ .zeroDivisor hzero
  have hfold : (binary (number 5.0) "/" (number 0.0)).fold = .error (.divisionByZero "5") :=
    result_combine_eq_error_iff.2 hrefused
  have hbreaks : (binary (number 5.0) "/" (number 0.0)).breaks = true :=
    breaks_binary rfl rfl (result_combine_eq_error_iff.2 hrefused)
  have hfind : (binary (boolean false) "&&" (binary (number 5.0) "/" (number 0.0))).postorder.find?
      breaks = some (binary (number 5.0) "/" (number 0.0)) := by
    rw [List.find?_eq_some_iff_append]
    exact ⟨hbreaks, [boolean false, number 5.0, number 0.0], _, rfl, by decide⟩
  exact ((fold_masks_no_fault _).2 _).2 ⟨_, _, _, _, _, hfind, hfold, rfl, rfl, hrefused⟩

end Expr

end Cascade
