import Mathlib.Tactic.Common
import Cascade.Proofs.Acceptance

/-!
# Verdicts on folded values

The verdict on a value that is already folded can be read off the expression it was folded from.
If there is an identifier in the expression, only the first one counts: it has to be declared, and
its type has to go with the type asked for, whatever the numbers are.  If there is none, the folded
value has to be a literal of the kind that the type asks for and, if it is a number, must not lie
outside the bounds.  The value itself is left as it is.

## Main definitions

* `ValueType.GoesWith` : a variable of one type may be used where another type is asked for.
* `ValueType.Fits` : a literal that a type asks for.
* `ValueType.Outside` : a number outside the bounds of a type.

## Main results

* `ValueType.compatible_family_iff` : the types that go with each other.
* `ValueType.checkLiteral_of_fits`, `ValueType.checkLiteral_of_outside`,
  `ValueType.checkLiteral_of_unfit` : the verdict on a value without an identifier.
* `Symbols.checkValue_of_fold` : the verdict on a folded value.
-/

namespace Cascade

namespace ValueType

/-! ### Variables -/

/-- Whether values of the type have truth values: they are numbers or booleans. -/
def HasTruth (type : ValueType) : Prop :=
  type.limits?.isSome = true ∨ type = .bool

/-- Whether a variable of one type may be used where another type is asked for: both are numeric or
boolean, both are characters, or both are strings. -/
def GoesWith (source type : ValueType) : Prop :=
  (source.HasTruth ∧ type.HasTruth) ∨ (source = .char ∧ type = .char) ∨
    (source = .str ∧ type = .str)

instance (type : ValueType) : Decidable type.HasTruth :=
  inferInstanceAs (Decidable (_ ∨ _))

instance (source type : ValueType) : Decidable (source.GoesWith type) :=
  inferInstanceAs (Decidable (_ ∨ _ ∨ _))

/-- The families of two types tell whether the types go with each other. -/
theorem compatible_family_iff {source type : ValueType} :
    source.family.compatible type.family = true ↔ source.GoesWith type := by
  cases source <;> cases type <;> decide

/-! ### Literals -/

/-- A value is a literal that the type asks for, and a number is neither below nor above the
bounds. -/
inductive Fits : ValueType → Expr → Prop
  | number {type : ValueType} {min max x : Float} (hbounds : type.bounds? = some (min, max))
      (hmin : ¬x < min) (hmax : ¬x > max) : Fits type (.number x)
  | boolean (value : Bool) : Fits .bool (.boolean value)
  | char (value : Char) : Fits .char (.char value)
  | str (value : String) : Fits .str (.str value)

/-- A value is a number that lies below or above the bounds of the type. -/
inductive Outside : ValueType → Expr → Float → Float → Float → Prop
  | number {type : ValueType} {min max x : Float} (hbounds : type.bounds? = some (min, max))
      (houtside : x < min ∨ x > max) : Outside type (.number x) min max x

/-- The types without bounds accept the literals of their own kind. -/
theorem matchesKind_iff {type : ValueType} {value : Expr} (hbounds : type.bounds? = none) :
    type.matchesKind value = true ↔ type.Fits value := by
  constructor
  · intro h
    unfold matchesKind at h
    split at h
    · exact .boolean _
    · exact .char _
    · exact .str _
    · cases h
  · intro h
    cases h with
    | number hsome => cases hbounds.symm.trans hsome
    | boolean _ | char _ | str _ => rfl

/-- A literal that the type asks for is accepted. -/
theorem checkLiteral_of_fits {type : ValueType} {value : Expr} (h : type.Fits value) :
    type.checkLiteral value = .ok () := by
  cases h with
  | number hbounds hmin hmax => simp [checkLiteral, hbounds, hmin, hmax]
  | boolean _ | char _ | str _ => rfl

/-- A number outside the bounds is refused with the bounds. -/
theorem checkLiteral_of_outside {type : ValueType} {value : Expr} {min max x : Float}
    (h : type.Outside value min max x) :
    type.checkLiteral value = .error (.outOfRange type.name min max x) := by
  obtain ⟨hbounds, houtside⟩ := h
  simp [checkLiteral, hbounds, houtside]

/-- Any other value is refused for its kind. -/
theorem checkLiteral_of_unfit {type : ValueType} {value : Expr} (hunfit : ¬type.Fits value)
    (hinside : ∀ min max x, ¬type.Outside value min max x) :
    type.checkLiteral value = .error (.kindMismatch type.describe (value.outline 0)) := by
  cases hbounds : type.bounds? with
  | none =>
    rw [← matchesKind_iff hbounds] at hunfit
    simp [checkLiteral, hbounds, hunfit]
  | some bounds =>
    obtain ⟨min, max⟩ := bounds
    simp only [checkLiteral, hbounds]
    split
    · rename_i x
      -- A number either lies outside the bounds or fits the type.
      by_cases houtside : x < min ∨ x > max
      · exact (hinside min max x (.number hbounds houtside)).elim
      · obtain ⟨hmin, hmax⟩ := not_or.1 houtside
        exact (hunfit (.number hbounds hmin hmax)).elim
    · rfl

/-- A value is accepted as a literal if and only if it is one that the type asks for. -/
theorem checkLiteral_eq_ok_iff {type : ValueType} {value : Expr} :
    type.checkLiteral value = .ok () ↔ type.Fits value := by
  refine ⟨fun h => ?_, checkLiteral_of_fits⟩
  by_contra hunfit
  by_cases houtside : ∃ min max x, type.Outside value min max x
  · obtain ⟨min, max, x, houtside⟩ := houtside
    cases (checkLiteral_of_outside houtside).symm.trans h
  · push Not at houtside
    cases (checkLiteral_of_unfit hunfit houtside).symm.trans h

end ValueType

namespace Symbols

/-- The verdict on a value that depends on a variable. -/
theorem checkVariable_eq (symbols : Symbols) (type : ValueType) (name : String) :
    symbols.checkVariable type name =
      match symbols.lookup? name with
      | none => .error (.variableNotDeclared name)
      | some source =>
        if source.family.compatible type.family then .ok ()
        else .error (.typeMismatch type.name source.name) := by
  unfold checkVariable lookup
  cases symbols.lookup? name <;> rfl

/-- The verdict on a folded value is that on its first identifier or on the literal. -/
theorem outcome_checkValue {value : Expr} (h : value.IsFolded) (symbols : Symbols)
    (type : ValueType) :
    (symbols.checkValue type value).outcome =
      match value.identifiers.head? with
      | some name => symbols.checkVariable type name
      | none => type.checkLiteral value := by
  obtain ⟨houtcome, hafter⟩ := Expr.inspect_of_isFolded h
  unfold checkValue
  simp only [houtcome, hafter]
  cases value.identifiers.head? <;> rfl

/-- The verdict on a folded value, told by the expression that it was folded from.  The value is
left as it is.  If there is an identifier in the expression, the first one decides by its type
alone.  Otherwise the value is accepted if it is a literal that the type asks for, a number outside
the bounds is refused with the bounds, and anything else is refused for its kind. -/
theorem checkValue_of_fold {e value : Expr} (h : e.fold = .ok value) (symbols : Symbols)
    (type : ValueType) :
    (symbols.checkValue type value).after = value ∧
    (∀ name, e.identifiers.head? = some name →
      (symbols.lookup? name = none →
        (symbols.checkValue type value).outcome = .error (.variableNotDeclared name)) ∧
      ∀ source, symbols.lookup? name = some source →
        (source.GoesWith type → (symbols.checkValue type value).outcome = .ok ()) ∧
        (¬source.GoesWith type →
          (symbols.checkValue type value).outcome =
            .error (.typeMismatch type.name source.name))) ∧
    (e.identifiers = [] →
      ((symbols.checkValue type value).outcome = .ok () ↔ type.Fits value) ∧
      (∀ min max x, type.Outside value min max x →
        (symbols.checkValue type value).outcome = .error (.outOfRange type.name min max x)) ∧
      (¬type.Fits value → (∀ min max x, ¬type.Outside value min max x) →
        (symbols.checkValue type value).outcome =
          .error (.kindMismatch type.describe (value.outline 0)))) := by
  have hfolded := Expr.isFolded_of_fold h
  have hverdict := outcome_checkValue hfolded symbols type
  rw [Expr.identifiers_of_fold h] at hverdict
  refine ⟨after_checkValue hfolded symbols type, fun name hname => ?_, fun hnone => ?_⟩
  · simp only [hname, checkVariable_eq] at hverdict
    rw [hverdict]
    refine ⟨fun hlookup => by rw [hlookup], fun source hlookup => ?_⟩
    simp only [hlookup, ← ValueType.compatible_family_iff]
    exact ⟨fun hgoes => if_pos hgoes, fun hgoes => if_neg hgoes⟩
  · simp only [hnone, List.head?_nil] at hverdict
    rw [hverdict]
    exact ⟨ValueType.checkLiteral_eq_ok_iff, fun _ _ _ => ValueType.checkLiteral_of_outside,
      ValueType.checkLiteral_of_unfit⟩

/-- Beside a boolean variable any number is accepted, and a logical not that is kept in front of
a number is refused although it hides no variable. -/
theorem checkValue_of_fold_kept :
    ((empty.declare "x" .bool).checkValue .i8
        (.binary (.number (3.0 * 1000.0)) "+" (.identifier "x"))).outcome = .ok () ∧
      (empty.checkValue .i8 (.unary "!" (.number 5.0))).outcome =
        .error (.kindMismatch "i8 in [-128, 127]" "(\n\t!\n\t5\n)") := by
  have hsum : (Expr.binary (.binary (.number 3.0) "*" (.number 1000.0)) "+"
      (.identifier "x")).fold = .ok (.binary (.number (3.0 * 1000.0)) "+" (.identifier "x")) := rfl
  have hnot : (Expr.unary "!" (.number 5.0)).fold = .ok (.unary "!" (.number 5.0)) := rfl
  have hunfit : ¬ValueType.i8.Fits (.unary "!" (.number 5.0)) := by
    rintro ⟨⟩
  have hinside : ∀ min max x, ¬ValueType.i8.Outside (.unary "!" (.number 5.0)) min max x := by
    rintro _ _ _ ⟨⟩
  have hdescribe : ValueType.i8.describe = "i8 in [-128, 127]" := by decide +kernel
  have houtline : (Expr.unary "!" (.number 5.0)).outline 0 = "(\n\t!\n\t5\n)" := by decide +kernel
  constructor
  · have hvariable := (checkValue_of_fold hsum (empty.declare "x" .bool) .i8).2.1 "x" rfl
    exact (hvariable.2 .bool rfl).1 (.inl ⟨.inr rfl, .inl rfl⟩)
  · rw [← hdescribe, ← houtline]
    exact ((checkValue_of_fold hnot empty .i8).2.2 rfl).2.2 hunfit hinside

end Symbols

end Cascade
