import Cascade.Proofs.Folding
import Cascade.Validation

/-!
# Accepted values

A value that depends on variables is accepted because of its first identifier: this one has to be
declared with a type that goes with the type asked for, and no other identifier is looked up.  So
acceptance vouches for all identifiers of a value only if they all have the same name.

## Main definitions

* `Symbols.Declares` : a name has a type in the table.
* `Symbols.Accepts`, `Symbols.AcceptsFor` : a value is accepted for a type, or for a variable.

## Main results

* `Symbols.accepts_iff` : what acceptance depends on.
* `Expr.identifiers_declared_iff` : the values of which acceptance vouches for every identifier.
-/

namespace Cascade

namespace Symbols

/-- Whether a name is declared. -/
def Declares (symbols : Symbols) (name : String) : Prop :=
  ∃ type, symbols.lookup? name = some type

/-- Whether a value is accepted for a type. -/
def Accepts (symbols : Symbols) (type : ValueType) (value : Expr) : Prop :=
  (symbols.checkValue type value).outcome = .ok ()

/-- Whether a value is accepted for a variable. -/
def AcceptsFor (symbols : Symbols) (name : String) (value : Expr) : Prop :=
  ∃ type, (symbols.checkAssignment name value).outcome = .ok type

/-- A variable is looked up successfully if and only if it is declared. -/
theorem lookup_eq_ok_iff {symbols : Symbols} {name : String} {type : ValueType} :
    symbols.lookup name = .ok type ↔ symbols.lookup? name = some type := by
  unfold lookup
  cases symbols.lookup? name <;> simp

/-- A variable is accepted if it is declared with a type that goes with the type asked for. -/
theorem checkVariable_eq_ok_iff {symbols : Symbols} {type : ValueType} {name : String} :
    symbols.checkVariable type name = .ok () ↔
      ∃ source, symbols.lookup? name = some source ∧
        source.family.compatible type.family = true := by
  unfold checkVariable lookup
  cases symbols.lookup? name with
  | none =>
    change Except.error _ = _ ↔ _
    simp
  | some source =>
    change (if source.family.compatible type.family = true then Except.ok () else Except.error _) =
      _ ↔ _
    by_cases h : source.family.compatible type.family = true <;> simp [h]

/-- Checking a folded value leaves it as it is. -/
theorem after_checkValue {value : Expr} (h : value.IsFolded) (symbols : Symbols)
    (type : ValueType) : (symbols.checkValue type value).after = value := by
  obtain ⟨houtcome, hafter⟩ := Expr.inspect_of_isFolded h
  unfold checkValue
  simp only [houtcome, hafter]
  cases value.identifiers.head? <;> rfl

/-- Checking a folded value for a variable leaves it as it is. -/
theorem after_checkAssignment {value : Expr} (h : value.IsFolded) (symbols : Symbols)
    (name : String) : (symbols.checkAssignment name value).after = value := by
  unfold checkAssignment
  cases symbols.lookup name with
  | error fault => rfl
  | ok type => exact after_checkValue h symbols type

/-- Acceptance depends on the first identifier of the value, or, if there is none, on the literal
that the value is. -/
theorem accepts_iff {symbols : Symbols} {type : ValueType} {value : Expr} :
    symbols.Accepts type value ↔
      value.OperandsFold ∧
        match value.identifiers.head? with
        | some name => symbols.checkVariable type name = .ok ()
        | none => type.checkLiteral value.inspect.after = .ok () := by
  unfold Accepts checkValue
  cases houtcome : value.inspect.outcome with
  | error fault =>
    have hfail : ¬value.OperandsFold := by
      intro hfold
      rw [Expr.outcome_inspect_of_operandsFold hfold] at houtcome
      cases houtcome
    simp [houtcome, hfail]
  | ok found =>
    obtain ⟨hfold, rfl⟩ := Expr.outcome_inspect_eq_ok_iff.1 houtcome
    simp only [houtcome, hfold, true_and]
    cases value.identifiers.head? <;> rfl

/-- A value is accepted for a variable if the variable is declared and its type accepts the
value. -/
theorem acceptsFor_iff {symbols : Symbols} {name : String} {value : Expr} :
    symbols.AcceptsFor name value ↔
      ∃ type, symbols.lookup? name = some type ∧ symbols.Accepts type value := by
  unfold AcceptsFor checkAssignment
  cases hlookup : symbols.lookup name with
  | error fault =>
    have hnone : ∀ type, symbols.lookup? name ≠ some type := by
      intro type htype
      rw [lookup_eq_ok_iff.2 htype] at hlookup
      cases hlookup
    simp [hnone]
  | ok type =>
    rw [lookup_eq_ok_iff.1 hlookup]
    unfold Accepts
    cases houtcome : (symbols.checkValue type value).outcome <;> simp [houtcome, Except.map]

/-- The first identifier of an accepted value is declared. -/
theorem Accepts.declares_head {symbols : Symbols} {type : ValueType} {value : Expr} {name : String}
    (h : symbols.Accepts type value) (hname : value.identifiers.head? = some name) :
    symbols.Declares name := by
  obtain ⟨-, haccepted⟩ := accepts_iff.1 h
  rw [hname] at haccepted
  obtain ⟨source, hsource, -⟩ := checkVariable_eq_ok_iff.1 haccepted
  exact ⟨source, hsource⟩

/-- A table that declares the first identifier of a value alone accepts the value. -/
theorem accepts_declare_head {value : Expr} {name : String} (hfold : value.OperandsFold)
    (hname : value.identifiers.head? = some name) (type : ValueType) :
    (empty.declare name type).Accepts type value := by
  refine accepts_iff.2 ⟨hfold, ?_⟩
  rw [hname]
  refine checkVariable_eq_ok_iff.2 ⟨type, ?_, ?_⟩
  · rw [lookup?_declare, if_pos rfl]
  · cases type <;> rfl

end Symbols

namespace Expr

open Symbols

/-- Whether all identifiers of an expression have the same name. -/
def OneName (e : Expr) : Prop :=
  ∀ name ∈ e.identifiers, ∀ other ∈ e.identifiers, name = other

/-- If all identifiers of an accepted value have the same name, they are declared. -/
theorem OneName.declares {value : Expr} (hone : value.OneName) {symbols : Symbols}
    {type : ValueType} (h : symbols.Accepts type value) :
    ∀ name ∈ value.identifiers, symbols.Declares name := by
  intro name hname
  cases hhead : value.identifiers.head? with
  | none =>
    rw [List.head?_eq_none_iff.1 hhead] at hname
    cases hname
  | some first =>
    rw [hone name hname first (List.mem_of_head? hhead)]
    exact h.declares_head hhead

/-- If the table with the first identifier of a value alone declares every identifier of the value,
then all of them have the same name. -/
theorem oneName_of_declares {value : Expr} {first : String} {type : ValueType}
    (h : ∀ name ∈ value.identifiers, (Symbols.empty.declare first type).Declares name) :
    value.OneName := by
  have heq : ∀ name ∈ value.identifiers, name = first := by
    intro name hname
    obtain ⟨found, hfound⟩ := h name hname
    by_contra hne
    rw [lookup?_declare, if_neg hne, lookup?_empty] at hfound
    cases hfound
  exact fun name hname other hother => (heq name hname).trans (heq other hother).symm

/-- Acceptance vouches for every identifier of a value, be it for a declaration or for an
assignment, if and only if the value can never be accepted because an operand cannot be folded, or
all of its identifiers have the same name. -/
theorem identifiers_declared_iff (value : Expr) :
    ((∀ (symbols : Symbols) (type : ValueType), symbols.Accepts type value →
        ∀ name ∈ value.identifiers, symbols.Declares name) ↔
      (value.OperandsFold → value.OneName)) ∧
    ((∀ (symbols : Symbols) (target : String), symbols.AcceptsFor target value →
        ∀ name ∈ value.identifiers, symbols.Declares name) ↔
      (value.OperandsFold → value.OneName)) := by
  have hsound : (value.OperandsFold → value.OneName) → ∀ (symbols : Symbols) (type : ValueType),
      symbols.Accepts type value → ∀ name ∈ value.identifiers, symbols.Declares name := by
    intro hone symbols type haccepts
    exact (hone (accepts_iff.1 haccepts).1).declares haccepts
  have hnil : value.identifiers.head? = none → value.OneName := by
    intro hhead name hname
    rw [List.head?_eq_none_iff.1 hhead] at hname
    cases hname
  refine ⟨⟨fun h hfold => ?_, hsound⟩, ⟨fun h hfold => ?_, fun hone symbols target hfor => ?_⟩⟩
  · cases hhead : value.identifiers.head? with
    | none => exact hnil hhead
    | some first =>
      exact oneName_of_declares (h _ .i32 (accepts_declare_head hfold hhead .i32))
  · cases hhead : value.identifiers.head? with
    | none => exact hnil hhead
    | some first =>
      -- The identifier itself serves as the target, so that the table declares nothing else.
      have hfor : (Symbols.empty.declare first .i32).AcceptsFor first value :=
        acceptsFor_iff.2 ⟨.i32, by rw [lookup?_declare, if_pos rfl],
          accepts_declare_head hfold hhead .i32⟩
      exact oneName_of_declares (h _ first hfor)
  · obtain ⟨type, -, haccepts⟩ := acceptsFor_iff.1 hfor
    exact hsound hone symbols type haccepts

/-- A sum of two variables is accepted although the second one was never declared. -/
theorem accepts_undeclared_operand :
    (Symbols.empty.declare "a" .i32).Accepts .i32 (binary (identifier "a") "+" (identifier "b")) ∧
      "b" ∈ (binary (identifier "a") "+" (identifier "b")).identifiers ∧
      ¬(Symbols.empty.declare "a" .i32).Declares "b" := by
  have hfold : (binary (identifier "a") "+" (identifier "b")).OperandsFold :=
    ⟨⟨identifier "a", rfl⟩, identifier "b", rfl⟩
  refine ⟨accepts_declare_head hfold rfl .i32, by simp [identifiers], ?_⟩
  rintro ⟨type, htype⟩
  rw [lookup?_declare, if_neg (by decide), lookup?_empty] at htype
  cases htype

end Expr

end Cascade
