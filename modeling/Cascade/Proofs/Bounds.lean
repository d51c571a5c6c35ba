import Mathlib.Tactic.Common
import Cascade.Proofs.Replay

/-!
# Bounds of declared numbers

A number is refused for a numeric type if it is less than the least value of the type or greater
than the greatest one.  The result of an undefined operation, such as the difference of two
infinities, is neither, so it is accepted for every numeric type although it lies within no bounds.
Any other number that is declared in an accepted program lies within the bounds of its type, however
deep the declaration is nested and whatever was folded to get the number.

## Main results

* `Number.le_iff` : two numbers that are defined are in order or in the strict opposite order.
* `ValueType.within_bounds_iff` : the numbers accepted for a type that lie within its bounds.
* `Dialect.declared_within_bounds_iff` : the declared numbers that lie within the bounds of their
  types.
-/

namespace Cascade

/-! ### Comparing numbers -/

namespace Number

open Float.Model

theorem compare_swap (a b : UnpackedFloat) : b.compare a = (a.compare b).map Ordering.swap := by
  rcases a with (_ | _) | _ | _ | ⟨_ | _, m, e, _⟩ <;>
    rcases b with (_ | _) | _ | _ | ⟨_ | _, m', e', _⟩ <;> try rfl
  -- Two finite numbers of one sign are compared by their exponents and then by their digits.
  all_goals simp [UnpackedFloat.compare, Ordering.swap_then, Nat.compare_swap, Int.compare_swap]

theorem compare_eq_none_iff {a b : UnpackedFloat} :
    a.compare b = none ↔ a.isNaN = true ∨ b.isNaN = true := by
  rcases a with (_ | _) | _ | _ | ⟨_ | _, m, e, _⟩ <;>
    rcases b with (_ | _) | _ | _ | ⟨_ | _, m', e', _⟩ <;>
      simp [UnpackedFloat.compare, UnpackedFloat.isNaN]

/-- A number is less than another one if their unpacked forms compare so. -/
theorem lt_iff_compare {a b : Float} :
    a < b ↔ a.toModel.unpack.compare b.toModel.unpack = some .lt := by
  change decide (a.toModel < b.toModel) = true ↔ _
  rw [decide_eq_true_iff]
  exact beq_iff_eq

/-- Two numbers are in order if and only if both are defined and they are not in the strict opposite
order. -/
theorem le_iff {a b : Float} : a ≤ b ↔ a.isNaN = false ∧ b.isNaN = false ∧ ¬b < a := by
  have hle : a ≤ b ↔ (a.toModel.unpack.compare b.toModel.unpack).any Ordering.isLE = true := by
    change decide (a.toModel ≤ b.toModel) = true ↔ _
    rw [decide_eq_true_iff]
    rfl
  have hnone := @compare_eq_none_iff a.toModel.unpack b.toModel.unpack
  change _ ↔ a.toModel.unpack.isNaN = false ∧ b.toModel.unpack.isNaN = false ∧ _
  rw [hle, lt_iff_compare, compare_swap a.toModel.unpack]
  cases hcompare : a.toModel.unpack.compare b.toModel.unpack with
  | none =>
    rcases hnone.1 hcompare with hnan | hnan <;> simp [hnan]
  | some o =>
    rw [hcompare] at hnone
    simp only [reduceCtorEq, false_iff, not_or, Bool.not_eq_true] at hnone
    rw [hnone.1, hnone.2]
    cases o <;> decide

end Number

/-! ### Accepted numbers -/

namespace ValueType

/-- The bounds of a numeric type are defined. -/
theorem isNaN_bounds {type : ValueType} {min max : Float} (h : type.bounds? = some (min, max)) :
    min.isNaN = false ∧ max.isNaN = false := by
  have hall : (type.bounds?.all fun b => !b.1.isNaN && !b.2.isNaN) = true := by
    cases type <;> decide +kernel
  simpa [h] using hall

/-- A number that is accepted for a type lies within the bounds of the type if and only if it is
defined. -/
theorem within_bounds_iff {type : ValueType} {min max v : Float}
    (hbounds : type.bounds? = some (min, max)) (h : type.checkLiteral (.number v) = .ok ()) :
    (min ≤ v ∧ v ≤ max) ↔ v.isNaN = false := by
  obtain ⟨hmin, hmax⟩ := isNaN_bounds hbounds
  have hinside : ¬(v < min ∨ v > max) := by
    intro houtside
    simp [checkLiteral, hbounds, houtside] at h
  obtain ⟨hbelow, habove⟩ := not_or.1 hinside
  rw [Number.le_iff, Number.le_iff]
  constructor
  · rintro ⟨⟨-, hv, -⟩, -⟩
    exact hv
  · intro hv
    exact ⟨⟨hmin, hv, hbelow⟩, hv, hmax, habove⟩

end ValueType

namespace Symbols

/-- The value of a declaration that is replayed was accepted by some table. -/
theorem Replays.exists_accepts {symbols symbols' : Symbols} {stmts : List Stmt} {name : String}
    {type : ValueType} {isMutable : Bool} {value : Expr} (h : symbols.Replays stmts symbols')
    (hmem : Stmt.declare name type isMutable value ∈ stmts) :
    ∃ between : Symbols, between.Accepts type value := by
  obtain ⟨before, after, rfl⟩ := List.append_of_mem hmem
  obtain ⟨between, -, hrest⟩ := exists_of_replays_append h
  obtain ⟨next, hfirst, -⟩ := replays_cons.1 hrest
  refine ⟨between, ?_⟩
  simp only [recheck] at hfirst
  cases houtcome : (between.checkValue type value).outcome with
  | error fault => rw [houtcome] at hfirst; cases hfirst
  | ok u => exact houtcome

/-- A number that a table accepts for a type is accepted as a literal. -/
theorem Accepts.checkLiteral_number {symbols : Symbols} {type : ValueType} {v : Float}
    (h : symbols.Accepts type (.number v)) : type.checkLiteral (.number v) = .ok () := by
  have hfolded : (Expr.number v).IsFolded := trivial
  obtain ⟨-, hliteral⟩ := accepts_iff.1 h
  simp only [Expr.identifiers, List.head?_nil] at hliteral
  rwa [(Expr.inspect_of_isFolded hfolded).2] at hliteral

end Symbols

namespace Dialect

open Symbols

/-- Every number that is declared anywhere in an accepted program, for a type with bounds, lies
within the bounds if and only if it is defined. -/
theorem declared_within_bounds_iff (d : Dialect) (tokens : List Token) (file : String)
    (program : List Stmt) (h : (d.parse tokens file).result = .ok program) :
    ∀ name type isMutable v min max,
      Stmt.declare name type isMutable (.number v) ∈ Stmt.bodyBindings program →
        type.bounds? = some (min, max) → ((min ≤ v ∧ v ≤ max) ↔ v.isNaN = false) := by
  intro name type isMutable v min max hmem hbounds
  obtain ⟨between, haccepts⟩ := (replays_of_parse h).exists_accepts hmem
  exact ValueType.within_bounds_iff hbounds haccepts.checkLiteral_number

/-- The tokens that declare a variable of eight bits with the given value. -/
def declarationTokens (value : List Token) : List Token :=
  [.bare .kwLet "let", .bare .identifier "x", .bare .colon ":", .bare .typeName "i8",
   .bare .assign "="] ++ value ++ [.bare .semicolon ";"]

/-- The number that is declared by a program of a single declaration of eight bits. -/
def soleNumber? : Except Failure (List Stmt) → Option Float
  | .ok [.declare _ .i8 _ (.number v)] => some v
  | _ => none

theorem exists_of_soleNumber? {result : Except Failure (List Stmt)} {v : Float}
    (h : soleNumber? result = some v) :
    ∃ name isMutable, result = .ok [.declare name .i8 isMutable (.number v)] := by
  unfold soleNumber? at h
  split at h
  · cases h
    exact ⟨_, _, rfl⟩
  · cases h

/-- The least number of a type lies within its bounds. -/
theorem declared_within_bounds_least :
    ∃ name isMutable,
      (full.parse (declarationTokens [.bare .binaryOperator "-", .bare .number "128"]) "").result =
          .ok [.declare name .i8 isMutable (.number (-128.0))] ∧
        (-128.0 : Float) ≤ -128.0 ∧ (-128.0 : Float) ≤ 127.0 := by
  have hleast : soleNumber? (full.parse (declarationTokens
      [.bare .binaryOperator "-", .bare .number "128"]) "").result = some (-128.0) := by
    decide +kernel
  have hbounds : ValueType.i8.bounds? = some (-128.0, 127.0) := by decide +kernel
  obtain ⟨name, isMutable, hresult⟩ := exists_of_soleNumber? hleast
  refine ⟨name, isMutable, hresult, ?_⟩
  exact (declared_within_bounds_iff full _ "" _ hresult name .i8 isMutable _ _ _
    List.mem_cons_self hbounds).2 (by decide +kernel)

/-- The tokens of zero times a product that is infinite. -/
def zeroTimesInfinity : List Token :=
  .bare .number "0" :: (List.replicate 8 [.bare .binaryOperator "*",
    .bare .number "10000000000000000000000000000000000000000"]).flatten

/-- Zero times infinity is accepted although it lies within no bounds. -/
theorem declared_beyond_bounds :
    ∃ name isMutable v,
      (full.parse (declarationTokens zeroTimesInfinity) "").result =
          .ok [.declare name .i8 isMutable (.number v)] ∧
        ValueType.i8.bounds? = some (-128.0, 127.0) ∧
        ¬(-128.0 : Float) ≤ v ∧ ¬v ≤ (127.0 : Float) := by
  have hundefined : soleNumber? (full.parse (declarationTokens zeroTimesInfinity) "").result =
      some (0.0 / 0.0) := by
    decide +kernel
  obtain ⟨name, isMutable, hresult⟩ := exists_of_soleNumber? hundefined
  refine ⟨name, isMutable, 0.0 / 0.0, hresult, ?_⟩
  decide +kernel

end Dialect

end Cascade
