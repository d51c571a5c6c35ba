import Mathlib.Tactic.Common
import Cascade.Proofs.Depth
import Cascade.Proofs.Mirror

/-!
# Dialects in lockstep

Every rule is mirrored if the productions and statements are that it calls for, so every production
of a dialect is mirrored, at any two places and with any bounds on the depth of the calls.  The
rules that end a statement do not look beyond it except for a fallback or another branch.

## Main definitions

* `Rule.closes`, `Production.closes` : the rules and productions that end a statement.

## Main results

* `Rule.closes_parse`, `Rule.mirrors_parse` : a rule is mirrored if the productions are that it
  calls for.
* `Dialect.mirrors_statement`, `Dialect.mirrors_scope`, `Dialect.mirrors_program` : a dialect is
  mirrored.
* `Dialect.closes_statement` : a statement is mirrored whatever replaces the end mark behind it.
-/

namespace Cascade

namespace Parse

variable {α β : Type} {κ : Likeness} {loose : Prop} {V : α → α → Prop} {p q : Parse α}

/-! ### Parts of statements -/

/-- In front of a token of the expected kind, expecting it is moving on. -/
theorem run_expect_of_kind {expected : TokenKind} {s : State} (h : s.cursor.here.kind = expected)
    (description : String) : (expect expected description).run s = advance.run s := by
  rw [run_expect, if_pos h]
  rfl

/-- A rule that looks for a token of its own expects it where it has found it. -/
theorem keyword_eq_expect (wanted : TokenKind) (p : Parse α) (f : Token → Parse α) :
    (kind >>= fun k => if k ≠ wanted then p else advance >>= f) =
      kind >>= fun k => if k ≠ wanted then p else expect wanted "" >>= f := by
  ext s
  rw [run_bind_of_ok (congrArg Outcome.result (run_kind s)),
    run_bind_of_ok (congrArg Outcome.result (run_kind s)), run_kind]
  split
  · rfl
  · rename_i hkind
    have hadvance := run_expect_of_kind (not_not.1 hkind) ""
    rw [run_bind_of_ok (congrArg Outcome.result (run_advance s)),
      run_bind_of_ok (congrArg Outcome.result hadvance), hadvance]

/-- A rule that closes a statement looks for a token of its own, or hands over to another one that
closes it. -/
theorem Closes.keyword {wanted : TokenKind} (hwanted : wanted ≠ .eof) (hp : Closes κ V p q)
    {f g : Token → Parse α} (hf : ∀ x y, κ.token x y → Mirrors κ True V (f x) (g y)) :
    Closes κ V (kind >>= fun k => if k ≠ wanted then p else advance >>= f)
      (kind >>= fun k => if k ≠ wanted then q else advance >>= g) := by
  rw [keyword_eq_expect, keyword_eq_expect]
  refine mirrors_kind.thenCloses fun k => ?_
  split
  · exact hp
  · exact (closes_expect hwanted _).bind hf

theorem Mirrors.keyword {wanted : TokenKind} (hp : Mirrors κ False V p q)
    {f g : Token → Parse α} (hf : ∀ x y, κ.token x y → Mirrors κ False V (f x) (g y)) :
    Mirrors κ False V (kind >>= fun k => if k ≠ wanted then p else advance >>= f)
      (kind >>= fun k => if k ≠ wanted then q else advance >>= g) := by
  refine mirrors_kind.andThen fun k => ?_
  split
  · exact hp
  · exact mirrors_advance.bind hf

/-- Whether a kind may be taken for another one by a step that looks for what carries on a
statement. -/
def SeenAs (k k' : TokenKind) : Prop :=
  k = k' ∨ k = .eof ∧ k' ≠ .kwElse ∧ k' ≠ .kwOr

instance : Std.Refl SeenAs := ⟨fun _ => .inl rfl⟩

theorem mirrors_kind_seenAs : Mirrors κ True SeenAs kind kind := by
  refine mirrors_of_stays (fun _ => rfl) fun s c' hmeets => ⟨.ok ?_, rfl⟩
  exact hmeets.imp κ.kind_eq And.right

/-- A statement that could end here is carried on if a fallback or another branch follows. -/
theorem Mirrors.carriedOn {wanted : TokenKind} (hwanted : wanted = .kwElse ∨ wanted = .kwOr)
    (hp : Mirrors κ True V p q) {f g : Token → Parse α}
    (hf : ∀ x y, κ.token x y → Mirrors κ True V (f x) (g y)) :
    Mirrors κ True V (kind >>= fun k => if k ≠ wanted then p else advance >>= f)
      (kind >>= fun k => if k ≠ wanted then q else advance >>= g) := by
  have heof : wanted ≠ .eof := by
    rcases hwanted with rfl | rfl <;> decide
  rw [keyword_eq_expect, keyword_eq_expect]
  refine mirrors_kind_seenAs.bind fun k k' hk => ?_
  rcases hk with rfl | ⟨rfl, hnext⟩
  · split
    · exact hp
    · exact ((closes_expect heof _).bind hf).mirrors
  · have hk' : k' ≠ wanted := by
      rcases hwanted with rfl | rfl
      · exact hnext.1
      · exact hnext.2
    rw [if_pos heof.symm, if_pos hk']
    exact hp

/-- A step whose bound depends on the state is mirrored if it is with any bounds. -/
theorem Mirrors.measured {P Q : Nat → Parse α} (h : ∀ m n, Mirrors κ loose V (P m) (Q n))
    (bound bound' : State → Nat) :
    Mirrors κ loose V (fun s => P (bound s) s) (fun s => Q (bound' s) s) :=
  ⟨fun s => (h (bound s) 0).forward s, fun s c' d' halong hmeets =>
    (h (bound s) (bound' ⟨c', s.symbols⟩)).mirror s c' d' halong hmeets⟩

theorem Closes.measured {P Q : Nat → Parse α} (h : ∀ m n, Closes κ V (P m) (Q n))
    (bound bound' : State → Nat) :
    Closes κ V (fun s => P (bound s) s) (fun s => Q (bound' s) s) :=
  ⟨.measured (fun m n => (h m n).mirrors) bound bound', fun s => (h (bound s) 0).needsToken s⟩

theorem Mirrors.withTokensLeft {P Q : Nat → Parse α} (h : ∀ m n, Mirrors κ loose V (P m) (Q n)) :
    Mirrors κ loose V (withTokensLeft P) (withTokensLeft Q) :=
  .measured h State.size State.size

theorem mirrors_mutability : Mirrors κ False Eq mutability mutability := by
  refine mirrors_kind.andThen fun k => ?_
  split
  · exact mirrors_advance.bind fun _ _ _ => mirrors_pure rfl
  · exact mirrors_pure rfl

theorem mirrors_declaredType : Mirrors κ False Eq declaredType declaredType := by
  refine (closes_expect (by decide) _).mirrors.strict.bind fun x y hxy => ?_
  rw [κ.value_eq hxy]
  exact mirrors_settle (κ.start hxy) _ _ _

theorem mirrors_negated (term : Expr) : Mirrors κ False Eq (negated term) (negated term) := by
  unfold negated
  split
  · exact mirrors_pure rfl
  · split
    · exact mirrors_pure rfl
    · exact (closes_fail _).mirrors.strict

section Parts

variable {production production' : Production → Parse Stmt} {statement statement' : Parse Stmt}

theorem Mirrors.onlyExpr {step step' : Parse Stmt} (h : Mirrors κ False Eq step step') :
    Mirrors κ False Eq (onlyExpr step) (onlyExpr step') := by
  refine h.andThen fun stmt => ?_
  cases stmt with
  | expr value => exact mirrors_pure rfl
  | assign name value => exact (closes_fail _).mirrors.strict
  | declare name type isMutable value => exact (closes_fail _).mirrors.strict

theorem Mirrors.condition (h : Mirrors κ False Eq (production .binary) (production' .binary)) :
    Mirrors κ False Eq (condition production) (condition production') :=
  h.onlyExpr.andThen fun e => mirrors_fold e

theorem Mirrors.manyWithin {stop : TokenKind → Bool} {step step' : Parse α}
    (h : Mirrors κ False Eq step step') (fuel fuel' : Nat) :
    Mirrors κ False Eq (manyWithin stop step fuel) (manyWithin stop step' fuel') := by
  induction fuel generalizing fuel' with
  | zero => exact (closes_exhausted _).mirrors.strict
  | succ fuel ih =>
    have hround : ∀ fuel', Mirrors κ False Eq (Parse.manyWithin stop step (fuel + 1))
        (Parse.manyWithin stop step' (fuel' + 1)) := by
      intro fuel'
      refine mirrors_kind.andThen fun k => ?_
      split
      · exact mirrors_pure rfl
      · exact h.andThen fun a => (ih fuel').andThen fun as => mirrors_pure rfl
    cases fuel' with
    | zero => exact (hround 0).exhausted
    | succ fuel' => exact hround fuel'

theorem Mirrors.many {stop : TokenKind → Bool} {step step' : Parse α}
    (h : Mirrors κ False Eq step step') : Mirrors κ False Eq (many stop step) (many stop step') :=
  .withTokensLeft h.manyWithin

theorem Mirrors.scope (h : Mirrors κ False Eq statement statement') :
    Closes κ Eq (scope statement) (scope statement') := by
  refine (closes_expect (by decide) _).bind fun _ _ _ => Closes.mirrors ?_
  refine h.many.thenCloses fun body => ?_
  exact (closes_expect (by decide) _).bind fun _ _ _ => mirrors_pure rfl

theorem Mirrors.loopBody (h : Mirrors κ False Eq statement statement') :
    Closes κ Eq (loopBody statement) (loopBody statement') := by
  have hfallback : ∀ body : List Stmt, Mirrors κ True Eq
      (kind >>= fun k => if k ≠ .kwOr then pure (body, none) else
        advance >>= fun _ => Parse.scope statement >>= fun other => pure (body, some other))
      (kind >>= fun k => if k ≠ .kwOr then pure (body, none) else
        advance >>= fun _ => Parse.scope statement' >>= fun other => pure (body, some other)) :=
    fun body => .carriedOn (.inr rfl) (mirrors_pure rfl) fun _ _ _ =>
      (h.scope.andThen fun _ => mirrors_pure rfl).mirrors
  simp only [ne_eq, ite_not] at hfallback
  exact h.scope.andThen hfallback

theorem mirrors_elseBranches
    (hproduction : Mirrors κ False Eq (production .binary) (production' .binary))
    (hstatement : Mirrors κ False Eq statement statement') (fuel fuel' : Nat) (chain : Chain) :
    Mirrors κ True Eq (elseBranches production statement fuel chain)
      (elseBranches production' statement' fuel' chain) := by
  induction fuel generalizing fuel' chain with
  | zero => exact (closes_exhausted _).mirrors
  | succ fuel ih =>
    have hround : ∀ fuel', Mirrors κ True Eq (elseBranches production statement (fuel + 1) chain)
        (elseBranches production' statement' (fuel' + 1) chain) := by
      intro fuel'
      refine .carriedOn (.inl rfl) (mirrors_pure rfl) fun _ _ _ => Closes.mirrors ?_
      refine mirrors_kind.thenCloses fun k => ?_
      split
      · exact hstatement.scope.andThen fun body => mirrors_pure rfl
      · refine mirrors_advance.closes fun _ _ _ => hproduction.condition.thenCloses fun guard => ?_
        exact hstatement.scope.andThen fun body => ih fuel' _
    cases fuel' with
    | zero => exact (hround 0).exhausted
    | succ fuel' => exact hround fuel'

end Parts

end Parse

/-! ### Rules -/

/-- Whether a rule can end a statement: of what follows it looks for a fallback or another branch
only. -/
def Rule.closes : Rule → Bool
  | .conditional | .forLoop | .whileLoop | .loop | .jump _ | .declaration | .assignment
  | .number => true
  | .forward _ | .level _ _ _ | .unary | .parenthesis | .leaf _ _ _ => false

/-- Whether a production has a rule that can end a statement. -/
def Production.closes : Production → Bool
  | .conditional | .forLoop | .whileLoop | .loop | .breakJump | .continueJump | .declaration
  | .assignment | .number => true
  | _ => false

theorem Dialect.closes_of_rule {d : Dialect} {p : Production} {rule : Rule}
    (hrule : d.grammar.rule? p = some rule) : rule.closes = p.closes := by
  cases d <;> cases p <;> cases hrule <;> rfl

/-- Of a single token only the text is read. -/
theorem Dialect.read_of_value {d : Dialect} {p otherwise : Production} {kind : TokenKind}
    {read : Token → Except Fault Expr} (h : d.grammar.rule? p = some (.leaf kind read otherwise))
    {x y : Token} (hvalue : x.value = y.value) : read x = read y := by
  rcases read_of_leaf h with rfl | rfl | rfl | ⟨-, rfl⟩
  · rw [readStr, readStr, hvalue]
  · rw [readChar, readChar, hvalue]
  · rw [readBoolean, readBoolean, hvalue]
  · rw [readIdentifier, readIdentifier, hvalue]

theorem Likeness.isOperator_eq {κ : Likeness} {x y : Token} (h : κ.token x y)
    (operators : List String) : x.isOperator operators = y.isOperator operators := by
  rw [Token.isOperator, Token.isOperator, κ.kind_eq h, κ.value_eq h]

/-- Whether productions are mirrored by others, and those that can end a statement are mirrored
whatever replaces the end mark behind them. -/
structure Parse.InStep (κ : Likeness) (production production' : Production → Parse Stmt) :
    Prop where
  mirrors : ∀ q, Mirrors κ False Eq (production q) (production' q)
  closes : ∀ q : Production, q.closes = true → Closes κ Eq (production q) (production' q)

namespace Rule

open Parse

variable {κ : Likeness} {production production' : Production → Parse Stmt}
variable {statement statement' : Parse Stmt}

theorem run_numberRule (s : State) :
    numberRule.run s =
      if s.cursor.here.kind ≠ .number then
        ⟨.error (.fault ⟨.unexpectedToken s.cursor.here.value, s.cursor.here.span.start⟩), s, []⟩
      else
        match readNumber s.cursor.here with
        | .error fault => ⟨.error (.fault ⟨fault, s.cursor.here.span.start⟩), s, []⟩
        | .ok value => ⟨.ok (.expr value), s.advance, []⟩ := by
  rw [numberRule, run_bind_of_ok (congrArg Outcome.result (run_current s)), run_current]
  split
  · rfl
  · cases readNumber s.cursor.here <;> rfl

theorem closes_numberRule : Closes κ Eq numberRule numberRule := by
  refine closes_of_current fun s s' htoken => ?_
  have hread : readNumber s'.cursor.here = readNumber s.cursor.here := by
    rw [readNumber, readNumber, κ.value_eq htoken]
  rw [run_numberRule, run_numberRule, hread, ← κ.kind_eq htoken, ← κ.value_eq htoken]
  split
  · exact ⟨.fault (κ.start htoken), .inr ⟨fun _ _ => nofun, rfl, rfl⟩⟩
  · rename_i hnumber
    have heof : s.cursor.here.kind ≠ .eof := ne_of_eq_of_ne (not_not.1 hnumber) (by decide)
    cases readNumber s.cursor.here with
    | error fault => exact ⟨.fault (κ.start htoken), .inr ⟨fun _ _ => nofun, rfl, rfl⟩⟩
    | ok value => exact ⟨.ok rfl, .inl ⟨heof, rfl, rfl⟩⟩

section Statements

variable (h : InStep κ production production')

include h

/-- A value is folded and checked, and what it is found to be is reported at its first token. -/
theorem closes_value {check : Position → Expr → Parse Expr} {f g : Expr → Parse Stmt}
    (hcheck : ∀ q q' value, κ.position q q' → Mirrors κ False Eq (check q value) (check q' value))
    (hf : ∀ value, Closes κ Eq (f value) (g value)) :
    Closes κ Eq
      (position >>= fun start => Parse.expression production .binary >>= fun e =>
        fold e >>= fun value => check start value >>= f)
      (position >>= fun start => Parse.expression production' .binary >>= fun e =>
        fold e >>= fun value => check start value >>= g) := by
  refine mirrors_position.closes fun q q' hq => ?_
  refine (h.mirrors _).onlyExpr.thenCloses fun e => (mirrors_fold e).thenCloses fun value => ?_
  exact (hcheck q q' value hq).thenCloses hf

theorem closes_declarationRule :
    Closes κ Eq (declarationRule production) (declarationRule production') := by
  refine .keyword (by decide) (h.closes _ rfl) fun _ _ _ => Closes.mirrors ?_
  refine mirrors_mutability.thenCloses fun isMutable => ?_
  refine (closes_expect (by decide) _).bind fun name name' hname => Closes.mirrors ?_
  rw [κ.value_eq hname]
  refine (closes_expect (by decide) _).bind fun _ _ _ => Closes.mirrors ?_
  refine mirrors_declaredType.thenCloses fun type => ?_
  refine (closes_expect (by decide) _).bind fun _ _ _ => Closes.mirrors ?_
  refine closes_value h (fun _ _ value hq => mirrors_checkValue hq type value) fun value => ?_
  refine (closes_expect (by decide) _).bind fun _ _ _ => ?_
  exact (mirrors_declare _ _).andThen fun _ => mirrors_pure rfl

theorem closes_assignmentRule :
    Closes κ Eq (assignmentRule production) (assignmentRule production') := by
  refine (h.mirrors _).onlyExpr.thenCloses fun target => mirrors_kind.thenCloses fun k => ?_
  split
  · rename_i name
    refine mirrors_advance.closes fun _ _ _ => closes_value h (fun _ _ value hq => ?_) fun value => ?_
    · exact mirrors_checkAssignment hq name value
    · exact closes_terminator.andThen fun _ => mirrors_pure rfl
  · exact closes_terminator.andThen fun _ => mirrors_pure rfl

theorem closes_forRule (hstatement : Mirrors κ False Eq statement statement') :
    Closes κ Eq (forRule production statement) (forRule production' statement') := by
  refine .keyword (by decide) (h.closes _ rfl) fun _ _ _ => Closes.mirrors ?_
  refine (closes_expect (by decide) _).bind fun _ _ _ => Closes.mirrors ?_
  refine (h.mirrors _).thenCloses fun init => (h.mirrors _).condition.thenCloses fun guard => ?_
  refine (closes_expect (by decide) _).bind fun _ _ _ => Closes.mirrors ?_
  refine (h.mirrors _).thenCloses fun update => ?_
  refine (closes_expect (by decide) _).bind fun _ _ _ => Closes.mirrors ?_
  exact hstatement.loopBody.andThen fun _ => mirrors_pure rfl

/-- A rule that can end a statement is mirrored whatever replaces the end mark behind it. -/
theorem closes_parse {rule : Rule} (hrule : rule.closes = true)
    (hstatement : Mirrors κ False Eq statement statement') :
    Closes κ Eq (rule.parse production statement) (rule.parse production' statement') := by
  cases rule with
  | conditional =>
    refine .keyword (by decide) (h.closes _ rfl) fun _ _ _ => Closes.mirrors ?_
    refine (h.mirrors _).condition.thenCloses fun guard => hstatement.scope.andThen fun body => ?_
    refine Mirrors.andThen (.withTokensLeft fun fuel fuel' => ?_) fun chain => mirrors_pure rfl
    exact mirrors_elseBranches (h.mirrors _) hstatement fuel fuel' _
  | forLoop => exact closes_forRule h hstatement
  | whileLoop =>
    refine .keyword (by decide) (h.closes _ rfl) fun _ _ _ => Closes.mirrors ?_
    refine (h.mirrors _).condition.thenCloses fun guard => ?_
    exact hstatement.loopBody.andThen fun _ => mirrors_pure rfl
  | loop =>
    refine .keyword (by decide) (h.closes _ rfl) fun _ _ _ => Closes.mirrors ?_
    exact hstatement.loopBody.andThen fun _ => mirrors_pure rfl
  | jump target =>
    refine .keyword (by cases target <;> decide) (h.closes _ (by cases target <;> rfl))
      fun _ _ _ => Closes.mirrors ?_
    exact (closes_expect (by decide) _).bind fun _ _ _ => mirrors_pure rfl
  | declaration => exact closes_declarationRule h
  | assignment => exact closes_assignmentRule h
  | number => exact closes_numberRule
  | forward _ | level _ _ _ | unary | parenthesis | leaf _ _ _ => cases hrule

end Statements

theorem mirrors_levelRule (h : ∀ q, Mirrors κ False Eq (production q) (production' q))
    (whole operand : Production) (operators : List String) :
    Mirrors κ False Eq (levelRule production whole operand operators)
      (levelRule production' whole operand operators) := by
  refine (h operand).onlyExpr.andThen fun left => mirrors_current.bind fun x y hxy => ?_
  rw [κ.isOperator_eq hxy, κ.value_eq hxy]
  split
  · refine mirrors_advance.bind fun _ _ _ => (h whole).onlyExpr.andThen fun right => ?_
    exact (mirrors_fold _).andThen fun _ => mirrors_pure rfl
  · exact mirrors_pure rfl

theorem mirrors_unaryRule (h : Mirrors κ False Eq (production .primary) (production' .primary)) :
    Mirrors κ False Eq (unaryRule production) (unaryRule production') := by
  refine mirrors_current.bind fun x y hxy => ?_
  rw [κ.isOperator_eq hxy, κ.value_eq hxy, κ.kind_eq hxy]
  split
  · refine mirrors_advance.bind fun _ _ _ => ?_
    split
    · exact (closes_fail _).mirrors.strict
    · refine h.onlyExpr.andThen fun term => ?_
      exact (mirrors_fold _).andThen fun _ => mirrors_pure rfl
  split
  · refine mirrors_advance.bind fun _ _ _ => h.onlyExpr.andThen fun term => ?_
    exact (mirrors_fold _).andThen fun _ => mirrors_negated _
  · exact h

/-- A rule is mirrored if the productions and statements are that it calls for. -/
theorem mirrors_parse {d : Dialect} {p : Production} {rule : Rule}
    (hrule : d.grammar.rule? p = some rule) (h : InStep κ production production')
    (hstatement : Mirrors κ False Eq statement statement') :
    Mirrors κ False Eq (rule.parse production statement) (rule.parse production' statement') := by
  cases rule with
  | forward target => exact h.mirrors target
  | level whole operand operators => exact mirrors_levelRule h.mirrors whole operand operators
  | unary => exact mirrors_unaryRule (h.mirrors _)
  | parenthesis =>
    refine (h.mirrors _).keyword fun _ _ _ => ?_
    refine Mirrors.andThen (.onlyExpr ?_) fun _ => mirrors_pure rfl
    refine Mirrors.strict (Closes.mirrors (hstatement.thenCloses fun stmt => ?_))
    exact (closes_expect (by decide) _).bind fun _ _ _ => mirrors_pure rfl
  | leaf wanted read otherwise =>
    refine (h.mirrors _).keyword fun x y hxy => mirrors_position.bind fun q q' hq => ?_
    rw [Dialect.read_of_value hrule (κ.value_eq hxy)]
    exact (mirrors_settle hq _ _ _).andThen fun _ => mirrors_pure rfl
  | conditional | forLoop | whileLoop | loop | jump _ | declaration | assignment | number =>
    exact (closes_parse h rfl hstatement).mirrors.strict

end Rule

/-! ### Dialects -/

namespace Dialect

open Parse

variable {κ : Likeness} {production production' : Production → Parse Stmt}

theorem mirrors_start (d : Dialect) (h : InStep κ production production') :
    Mirrors κ False Eq (d.grammar.start production) (d.grammar.start production') := by
  unfold Grammar.start
  split
  · exact (closes_fail _).mirrors.strict
  · exact h.mirrors _

/-- A production is mirrored if it is with productions inside that are. -/
theorem inStep_unfolded (d : Dialect) (h : InStep κ production production') :
    InStep κ (d.grammar.unfolded production) (d.grammar.unfolded production') := by
  have hstatement := d.mirrors_start h
  constructor
  · intro p
    unfold Grammar.unfolded
    split
    · exact (closes_fail _).mirrors.strict
    · rename_i rule hrule
      refine mirrors_current.bind fun _ _ _ => (mirrors_tell _ _).andThen fun _ => ?_
      exact rule.mirrors_parse hrule h hstatement
  · intro p hp
    unfold Grammar.unfolded
    split
    · exact closes_fail _
    · rename_i rule hrule
      refine mirrors_current.closes fun _ _ _ => (mirrors_tell _ _).thenCloses fun _ => ?_
      exact rule.closes_parse h ((closes_of_rule hrule).trans hp) hstatement

/-- Every production is mirrored, with calls up to any depths. -/
theorem inStep_parseWithin (d : Dialect) (depth depth' : Nat) :
    InStep κ (d.grammar.parseWithin depth) (d.grammar.parseWithin depth') := by
  induction depth generalizing depth' with
  | zero => exact ⟨fun _ => (closes_exhausted _).mirrors.strict, fun _ _ => closes_exhausted _⟩
  | succ depth ih =>
    have hround : ∀ depth', InStep κ (d.grammar.parseWithin (depth + 1))
        (d.grammar.parseWithin (depth' + 1)) := fun depth' => d.inStep_unfolded (ih depth')
    cases depth' with
    | zero =>
      refine ⟨fun q => ((hround 0).mirrors q).exhausted, fun q hq => ?_⟩
      exact ⟨((hround 0).closes q hq).mirrors.exhausted, ((hround 0).closes q hq).needsToken⟩
    | succ depth' => exact hround depth'

theorem inStep_production (d : Dialect) : InStep κ d.grammar.production d.grammar.production := by
  constructor
  · intro q
    exact .measured (P := fun n => d.grammar.parseWithin n q)
      (fun m n => (d.inStep_parseWithin m n).mirrors q) State.depthBound State.depthBound
  · intro q hq
    exact .measured (P := fun n => d.grammar.parseWithin n q)
      (fun m n => (d.inStep_parseWithin m n).closes q hq) State.depthBound State.depthBound

theorem mirrors_statement (d : Dialect) :
    Mirrors κ False Eq d.grammar.statement d.grammar.statement :=
  d.mirrors_start d.inStep_production

/-- A statement is mirrored whatever replaces the end mark behind it, unless that carries it on. -/
theorem closes_statement (d : Dialect) : Closes κ Eq d.grammar.statement d.grammar.statement := by
  have h : InStep κ d.grammar.production d.grammar.production := d.inStep_production
  cases d
  · exact h.closes .number rfl
  · exact h.closes .declaration rfl
  · exact h.closes .conditional rfl

theorem mirrors_scope (d : Dialect) : Mirrors κ False Eq d.grammar.scope d.grammar.scope :=
  d.mirrors_statement.scope.mirrors.strict

theorem mirrors_program (d : Dialect) : Mirrors κ False Eq d.grammar.program d.grammar.program :=
  d.mirrors_statement.many

end Dialect

end Cascade
