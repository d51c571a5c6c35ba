import Mathlib.Tactic.Common
import Cascade.Grammar.Rule
import Cascade.Proofs.Acceptance

/-!
# Where faults come from

A fault is found while characters are scanned, while tokens are read by the rules of a grammar,
while an expression is folded or while a value is checked; or else the grammar itself is incomplete.
Which of these it is can be seen from the fault.

## Main definitions

* `Stage` : the stages of the way from a text to a tree.
* `Fault.stage` : the stage at which a fault is found.

## Main results

* `Expr.stage_of_fold` : folding finds faults of its own only.
* `Symbols.stage_of_checkValue`, `Symbols.stage_of_checkAssignment` : checking a folded value finds
  faults of its own only.
* `stage_of_readStr` and the others like it : what can be wrong with a single token.
-/

namespace Cascade

/-- The stages at which a fault can be found. -/
inductive Stage where
  /-- A text is cut into tokens. -/
  | scanning
  /-- Tokens are read by the rules of a grammar. -/
  | reading
  /-- An operation is carried out on folded operands. -/
  | folding
  /-- A value is checked against a type. -/
  | checking
  /-- A rule or a start is looked up in a grammar. -/
  | grammar
deriving DecidableEq, Repr

/-- The stage at which a fault is found. -/
def Fault.stage : Fault → Stage
  | unrecognisedToken _ => .scanning
  | unexpectedToken _ | syntaxError _ _ | numberParseError _ | invalidEscapeSequence _
  | invalidUnaryOperator _ | invalidNegativeTerm _ | invalidParenthesis _ | unknownType _ =>
    .reading
  | divisionByZero _ | invalidOperator _ _ _ | invalidOperands _ _ _ => .folding
  | outOfRange _ _ _ _ | kindMismatch _ _ | typeMismatch _ _ | variableNotDeclared _ => .checking
  | unregisteredProduction _ | noRootProduction => .grammar

variable {fault : Fault}

/-! ### Folding -/

theorem stage_of_combineNumbers {a b : Float} {operator : String}
    (h : combineNumbers a operator b = .error fault) : fault.stage = .folding := by
  unfold combineNumbers at h
  split at h
  case h_4 =>
    split at h <;> cases h
    rfl
  all_goals cases h
  rfl

theorem stage_of_combine {left right : Expr} {operator : String}
    (h : (combine left operator right).result = .error fault) : fault.stage = .folding := by
  rw [result_combine] at h
  split at h
  · exact stage_of_combineNumbers h
  · unfold combineOthers at h
    split at h
    · unfold combineTruths at h
      split at h <;> cases h
      rfl
    · split at h <;> cases h
      rfl

/-- Folding finds faults in operations only. -/
theorem Expr.stage_of_fold {e : Expr} (h : e.fold = .error fault) : fault.stage = .folding := by
  induction e using Expr.skeleton_induction with
  | leaf e he =>
    rw [fold_of_not_isContainer he] at h
    cases h
  | unary operator term ih =>
    rw [fold_unary] at h
    cases hterm : term.fold with
    | error fault' =>
      rw [hterm] at h
      cases h
      exact ih hterm
    | ok t => rw [hterm] at h; cases h
  | binary left operator right ihl ihr =>
    rw [fold_binary] at h
    cases hl : left.fold with
    | error fault' =>
      rw [hl] at h
      cases h
      exact ihl hl
    | ok l =>
      cases hr : right.fold with
      | error fault' =>
        rw [hl, hr] at h
        cases h
        exact ihr hr
      | ok r =>
        rw [hl, hr] at h
        exact stage_of_combine h

/-! ### Checking -/

theorem ValueType.stage_of_checkLiteral {type : ValueType} {value : Expr}
    (h : type.checkLiteral value = .error fault) : fault.stage = .checking := by
  unfold checkLiteral at h
  split at h
  · split at h
    · split at h <;> cases h
      rfl
    · cases h
      rfl
  · split at h <;> cases h
    rfl

namespace Symbols

theorem stage_of_lookup {symbols : Symbols} {name : String}
    (h : symbols.lookup name = .error fault) : fault.stage = .checking := by
  unfold lookup at h
  split at h <;> cases h
  rfl

theorem stage_of_checkVariable {symbols : Symbols} {type : ValueType} {name : String}
    (h : symbols.checkVariable type name = .error fault) : fault.stage = .checking := by
  unfold checkVariable at h
  cases hlookup : symbols.lookup name with
  | error fault' =>
    rw [hlookup] at h
    cases h
    exact stage_of_lookup hlookup
  | ok source =>
    rw [hlookup] at h
    change (if _ then _ else _) = _ at h
    split at h <;> cases h
    rfl

/-- There is nothing left to fold in a folded value, so a check finds faults of its own only. -/
theorem stage_of_checkValue {symbols : Symbols} {type : ValueType} {value : Expr}
    (hfolded : value.IsFolded) (h : (symbols.checkValue type value).outcome = .error fault) :
    fault.stage = .checking := by
  unfold checkValue at h
  simp only [(Expr.inspect_of_isFolded hfolded).1] at h
  cases hhead : value.identifiers.head? with
  | none =>
    rw [hhead] at h
    exact ValueType.stage_of_checkLiteral h
  | some name =>
    rw [hhead] at h
    exact stage_of_checkVariable h

theorem stage_of_checkAssignment {symbols : Symbols} {name : String} {value : Expr}
    (hfolded : value.IsFolded) (h : (symbols.checkAssignment name value).outcome = .error fault) :
    fault.stage = .checking := by
  unfold checkAssignment at h
  cases hlookup : symbols.lookup name with
  | error fault' =>
    rw [hlookup] at h
    cases h
    exact stage_of_lookup hlookup
  | ok type =>
    rw [hlookup] at h
    cases houtcome : (symbols.checkValue type value).outcome with
    | error fault' =>
      simp only [houtcome, Except.map] at h
      cases h
      exact stage_of_checkValue hfolded houtcome
    | ok u =>
      simp only [houtcome, Except.map] at h
      cases h

end Symbols

/-! ### Single tokens -/

theorem ValueType.stage_of_ofName {name : String} (h : ValueType.ofName name = .error fault) :
    fault.stage = .reading := by
  unfold ofName at h
  split at h <;> cases h
  rfl

theorem stage_of_readNumber {token : Token} (h : readNumber token = .error fault) :
    fault.stage = .reading := by
  unfold readNumber at h
  split at h <;> cases h
  rfl

theorem stage_of_readQuoted {quote : Char} {value : String}
    (h : readQuoted quote value = .error fault) : fault.stage = .reading := by
  unfold readQuoted at h
  split at h
  · cases h
    rfl
  · rename_i body hbody
    cases hdecode : Text.Escape.decode body with
    | error mistake => rw [hdecode] at h; cases h; rfl
    | ok text => rw [hdecode] at h; cases h

theorem stage_of_readStr {token : Token} (h : readStr token = .error fault) :
    fault.stage = .reading := by
  unfold readStr at h
  cases hquoted : readQuoted '"' token.value with
  | error fault' =>
    rw [hquoted] at h
    cases h
    exact stage_of_readQuoted hquoted
  | ok text => rw [hquoted] at h; cases h

theorem stage_of_readChar {token : Token} (h : readChar token = .error fault) :
    fault.stage = .reading := by
  unfold readChar at h
  cases hquoted : readQuoted '\'' token.value with
  | error fault' =>
    rw [hquoted] at h
    cases h
    exact stage_of_readQuoted hquoted
  | ok text =>
    rw [hquoted] at h
    rcases text with _ | ⟨c, _ | ⟨c', rest⟩⟩ <;> cases h <;> rfl

end Cascade
