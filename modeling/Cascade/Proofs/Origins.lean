import Mathlib.Tactic.Common
import Cascade.Proofs.Progress

/-!
# Where a failing run stops

A run of a dialect that fails has reached a token at which something is wrong, and there are only a
few ways in which this can be: the token is not the one that a rule asks for, it cannot be read, an
operation cannot be carried out, or a value is refused for its type.  All of them are listed here
once, with the report that is made and the state that is left.

## Main definitions

* `Origin` : what is wrong at a state, the report of it, and the state that is left.
* `Parse.TracesFrom`, `Parse.Traces` : every fault of a step has an origin.

## Main results

* `Rule.traces_parse` : the faults of a rule have an origin if those of the productions inside do.
* `Dialect.origin_of_parse` : every fault of a parse has an origin.
-/

namespace Cascade

/-- How the rules describe the tokens that they ask for. -/
def expectations : List String :=
  ["opening curly brace", "closing curly brace", "opening parenthesis", "closing parenthesis",
   "semicolon", "identifier", "colon", "type", "assignment symbol"]

/-- What can be wrong at a state, with the report of it and the state that is left.  Most reports
are located at the token that the cursor is left at. -/
inductive Origin : State → Report → State → Prop
  /-- Nothing is left to try. -/
  | unexpected (s : State) (hkind : s.cursor.here.kind ≠ .number) :
      Origin s ⟨.unexpectedToken s.cursor.here.value, s.cursor.here.span.start⟩ s
  | missing (s : State) {description : String} (hdescription : description ∈ expectations) :
      Origin s ⟨.syntaxError description s.cursor.here.value, s.cursor.here.span.start⟩ s
  | number (s : State) {fault : Fault} (hkind : s.cursor.here.kind = .number)
      (hread : readNumber s.cursor.here = .error fault) :
      Origin s ⟨fault, s.cursor.here.span.start⟩ s
  | str (s : State) {fault : Fault} (hkind : s.cursor.here.kind = .str)
      (hread : readStr s.cursor.here = .error fault) :
      Origin s ⟨fault, s.advance.cursor.here.span.start⟩ s.advance
  | char (s : State) {fault : Fault} (hkind : s.cursor.here.kind = .char)
      (hread : readChar s.cursor.here = .error fault) :
      Origin s ⟨fault, s.advance.cursor.here.span.start⟩ s.advance
  /-- An unknown type is located at its own token. -/
  | type (s : State) {fault : Fault} (hkind : s.cursor.here.kind = .typeName)
      (hread : ValueType.ofName s.cursor.here.value = .error fault) :
      Origin s ⟨fault, s.cursor.here.span.start⟩ s.advance
  | operator (s : State) (hkind : s.cursor.here.kind = .unaryOperator)
      (hvalue : s.cursor.here.value ≠ "!") :
      Origin s ⟨.invalidUnaryOperator s.cursor.here.value, s.advance.cursor.here.span.start⟩
        s.advance
  | negative (s : State) (term : String) :
      Origin s ⟨.invalidNegativeTerm term, s.cursor.here.span.start⟩ s
  | parenthesis (s : State) (statement : String) :
      Origin s ⟨.invalidParenthesis statement, s.cursor.here.span.start⟩ s
  | folding (s : State) {fault : Fault} (hstage : fault.stage = .folding) :
      Origin s ⟨fault, s.cursor.here.span.start⟩ s
  /-- A refused value is located at its first token, behind the assignment sign. -/
  | checking {s s' : State} {fault : Fault} (hkind : s.cursor.here.kind = .assign)
      (hpasses : s.advance.Passes 0 s') (hstage : fault.stage = .checking) :
      Origin s ⟨fault, s.advance.cursor.here.span.start⟩ s'

namespace Parse

variable {α β : Type} {s t u : State}

/-- Whether a step at the state `t` puts no token back and every fault that it finds has an origin
behind `s`, an incomplete grammar apart. -/
structure TracesFrom (s t : State) (p : Parse α) : Prop where
  /-- No token is put back. -/
  forward : t.Passes 0 (p.run t).state
  /-- A fault has an origin. -/
  origin : ∀ report, (p.run t).result = .error (.fault report) → report.fault.stage ≠ .grammar →
    ∃ u, s.Passes 0 u ∧ Origin u report (p.run t).state

/-- Whether every fault that a step finds has an origin. -/
def Traces (p : Parse α) : Prop :=
  ∀ s, p.TracesFrom s s

/-- An origin behind a state is one behind every state before it. -/
theorem Traces.after {p : Parse α} (h : p.Traces) (hs : s.Passes 0 t) : p.TracesFrom s t := by
  refine ⟨(h t).forward, fun report hreport hstage => ?_⟩
  obtain ⟨u, hu, horigin⟩ := (h t).origin report hreport hstage
  exact ⟨u, hs.trans hu, horigin⟩

/-- The faults of a sequence are those of its parts. -/
theorem TracesFrom.bind {p : Parse α} {f : α → Parse β} (h : p.TracesFrom s t)
    (hf : ∀ a u, p.Gives t a u → t.Passes 0 u → (f a).TracesFrom s u) :
    (p >>= f).TracesFrom s t := by
  cases hresult : (p.run t).result with
  | error failure =>
    have hrun := run_bind_of_error hresult f
    refine ⟨by rw [hrun]; exact h.forward, fun report hreport hstage => ?_⟩
    rw [hrun] at hreport ⊢
    cases hreport
    exact h.origin report hresult hstage
  | ok a =>
    have hsecond := hf a _ ⟨hresult, rfl⟩ h.forward
    have hrun := run_bind_of_ok hresult f
    refine ⟨by rw [hrun]; exact h.forward.trans hsecond.forward, fun report hreport hstage => ?_⟩
    rw [hrun] at hreport ⊢
    exact hsecond.origin report hreport hstage

theorem Traces.bind_at {p : Parse α} {f : α → Parse β} (h : p.Traces)
    (hf : ∀ a u, p.Gives s a u → s.Passes 0 u → (f a).TracesFrom s u) :
    (p >>= f).TracesFrom s s :=
  (h s).bind hf

theorem Traces.bind {p : Parse α} {f : α → Parse β} (h : p.Traces) (hf : ∀ a, (f a).Traces) :
    (p >>= f).Traces :=
  fun _ => h.bind_at fun a _ _ hu => (hf a).after hu

/-! ### Primitive steps -/

/-- A step that stays where it is and finds no fault. -/
theorem traces_of_ok {p : Parse α} (h : ∀ s, ∃ a, (p.run s).result = .ok a)
    (hcursor : ∀ s, (p.run s).state.cursor = s.cursor) : p.Traces := by
  refine fun s => ⟨⟨[], by rw [hcursor]; rfl, Nat.le_refl _⟩, fun report hreport => ?_⟩
  obtain ⟨a, ha⟩ := h s
  rw [ha] at hreport
  cases hreport

theorem traces_pure (a : α) : (pure a : Parse α).Traces :=
  traces_of_ok (fun _ => ⟨a, rfl⟩) fun _ => rfl

theorem traces_current : current.Traces :=
  traces_of_ok (fun _ => ⟨_, rfl⟩) fun _ => rfl

theorem traces_kind : kind.Traces :=
  traces_of_ok (fun _ => ⟨_, rfl⟩) fun _ => rfl

theorem traces_position : position.Traces :=
  traces_of_ok (fun _ => ⟨_, rfl⟩) fun _ => rfl

theorem traces_tell (event : Event) : (tell event).Traces :=
  traces_of_ok (fun _ => ⟨_, rfl⟩) fun _ => rfl

theorem traces_declare (name : String) (type : ValueType) : (declare name type).Traces :=
  traces_of_ok (fun _ => ⟨_, rfl⟩) fun _ => rfl

theorem traces_advance : advance.Traces :=
  fun s => ⟨s.passes_advance_zero, fun _ hreport => by cases hreport⟩

theorem traces_exhausted : (exhausted : Parse α).Traces :=
  fun s => ⟨.refl s, fun _ hreport => by cases hreport⟩

/-- A step that stays where it is and takes over a result. -/
theorem tracesFrom_settle {q : Position} {result : Except Fault α} {events : List Event}
    (h : ∀ fault, result = .error fault → ∃ u, s.Passes 0 u ∧ Origin u ⟨fault, q⟩ t) :
    (settle q result events).TracesFrom s t := by
  refine ⟨.refl t, fun report hreport _ => ?_⟩
  cases result with
  | error fault =>
    cases hreport
    exact h fault rfl
  | ok a => cases hreport

/-- A step that fails at the current token. -/
theorem traces_fail {fault : Fault}
    (h : ∀ s : State, Origin s ⟨fault, s.cursor.here.span.start⟩ s) :
    (fail fault : Parse α).Traces :=
  fun s => ⟨.refl s, fun _ hreport _ => by cases hreport; exact ⟨s, .refl s, h s⟩⟩

/-- A fault of the grammar needs no origin. -/
theorem traces_fail_grammar {fault : Fault} (h : fault.stage = .grammar) :
    (fail fault : Parse α).Traces :=
  fun s => ⟨.refl s, fun _ hreport hstage => by cases hreport; exact absurd h hstage⟩

theorem traces_fold (e : Expr) : (fold e).Traces := by
  refine fun s => traces_position.bind_at fun q t hq _ => ?_
  obtain ⟨rfl, rfl⟩ := gives_position.1 hq
  exact tracesFrom_settle fun fault hfault =>
    ⟨t, .refl t, .folding t (Expr.stage_of_fold hfault)⟩

theorem traces_expect (expected : TokenKind) {description : String}
    (hdescription : description ∈ expectations) : (expect expected description).Traces := by
  refine fun s => traces_current.bind_at fun token t htoken _ => ?_
  obtain ⟨rfl, rfl⟩ := gives_current.1 htoken
  split
  · exact traces_advance t
  · exact ⟨.refl t, fun report hreport _ => by
      cases hreport; exact ⟨t, .refl t, .missing t hdescription⟩⟩

theorem traces_terminator : terminator.Traces := by
  refine fun s => traces_current.bind_at fun token t htoken _ => ?_
  obtain ⟨rfl, rfl⟩ := gives_current.1 htoken
  split
  · exact traces_advance.bind (fun _ => traces_pure _) t
  · split
    · exact ⟨.refl t, fun report hreport _ => by
        cases hreport; exact ⟨t, .refl t, .missing t (by decide)⟩⟩
    · exact traces_pure _ t

theorem traces_mutability : mutability.Traces := by
  refine traces_kind.bind fun k => ?_
  split
  · exact traces_advance.bind fun _ => traces_pure _
  · exact traces_pure _

theorem traces_declaredType : declaredType.Traces := by
  intro s
  refine (traces_expect .typeName (by decide)).bind_at fun token t htoken _ => ?_
  obtain ⟨hkind, rfl, rfl⟩ := gives_expect.1 htoken
  exact tracesFrom_settle fun fault hfault => ⟨s, .refl s, .type s hkind hfault⟩

theorem traces_negated (term : Expr) : (negated term).Traces := by
  unfold negated
  split
  · exact traces_pure _
  · split
    · exact traces_pure _
    · exact traces_fail fun s => .negative s _

theorem traces_numberRule : numberRule.Traces := by
  refine fun s => traces_current.bind_at fun token t htoken _ => ?_
  obtain ⟨rfl, rfl⟩ := gives_current.1 htoken
  split
  · rename_i hkind
    exact ⟨.refl t, fun report hreport _ => by
      cases hreport; exact ⟨t, .refl t, .unexpected t hkind⟩⟩
  · rename_i hkind
    refine TracesFrom.bind (tracesFrom_settle fun fault hfault => ?_) fun value u hvalue hu => ?_
    · exact ⟨t, .refl t, .number t (not_not.1 hkind) hfault⟩
    · exact (traces_advance.bind fun _ => traces_pure _).after hu

/-! ### Parts of statements -/

section Parts

variable {production : Production → Parse Stmt} {statement : Parse Stmt}

theorem Traces.onlyExpr {step : Parse Stmt} (h : step.Traces) : (onlyExpr step).Traces := by
  refine h.bind fun stmt => ?_
  cases stmt with
  | expr value => exact traces_pure _
  | assign name value => exact traces_fail fun s => .parenthesis s _
  | declare name type isMutable value => exact traces_fail fun s => .parenthesis s _

theorem Traces.condition (h : (production .binary).Traces) : (condition production).Traces :=
  h.onlyExpr.bind fun e => traces_fold e

theorem Traces.many {stop : TokenKind → Bool} {step : Parse α} (h : step.Traces) :
    (many stop step).Traces := by
  have hwithin : ∀ fuel, (manyWithin stop step fuel).Traces := by
    intro fuel
    induction fuel with
    | zero => exact traces_exhausted
    | succ fuel ih =>
      refine traces_kind.bind fun k => ?_
      split
      · exact traces_pure _
      · exact h.bind fun a => ih.bind fun as => traces_pure _
  intro s
  have hs := hwithin s.cursor.remaining.length s
  exact ⟨hs.forward, hs.origin⟩

theorem Traces.scope (h : statement.Traces) : (scope statement).Traces :=
  (traces_expect _ (by decide)).bind fun _ => h.many.bind fun _ =>
    (traces_expect _ (by decide)).bind fun _ => traces_pure _

theorem Traces.loopBody (h : statement.Traces) : (loopBody statement).Traces := by
  refine h.scope.bind fun body => traces_kind.bind fun k => ?_
  split
  · exact traces_advance.bind fun _ => h.scope.bind fun _ => traces_pure _
  · exact traces_pure _

theorem Traces.elseBranches (hbinary : (production .binary).Traces) (hstatement : statement.Traces)
    (fuel : Nat) (chain : Chain) : (elseBranches production statement fuel chain).Traces := by
  induction fuel generalizing chain with
  | zero => exact traces_exhausted
  | succ fuel ih =>
    refine traces_kind.bind fun k => ?_
    split
    · exact traces_pure _
    · refine traces_advance.bind fun _ => traces_kind.bind fun k => ?_
      split
      · exact hstatement.scope.bind fun _ => traces_pure _
      · exact traces_advance.bind fun _ => hbinary.condition.bind fun _ =>
          hstatement.scope.bind fun _ => ih _

/-- A rule that looks for a token of its own, and hands over if it does not find it. -/
theorem Traces.keyword {wanted : TokenKind} {p : Parse α} (hp : p.Traces) {f : Token → Parse α}
    (hf : ∀ token, (f token).Traces) :
    (kind >>= fun k => if k ≠ wanted then p else advance >>= f).Traces := by
  refine traces_kind.bind fun k => ?_
  split
  · exact hp
  · exact traces_advance.bind hf

/-- A check that finds faults of its own only, of a value that stands behind an assignment sign. -/
theorem tracesFrom_settle_check {γ : Type} {checked : Inspection γ}
    (hkind : s.cursor.here.kind = .assign) (hpasses : s.advance.Passes 0 t)
    (h : ∀ fault, checked.outcome = .error fault → fault.stage = .checking) :
    (settle s.advance.cursor.here.span.start (checked.outcome.map fun _ => checked.after)
      checked.events).TracesFrom s t := by
  refine tracesFrom_settle fun fault hfault => ⟨s, .refl s, .checking hkind hpasses ?_⟩
  cases houtcome : checked.outcome with
  | error fault' =>
    rw [houtcome] at hfault
    cases hfault
    exact h fault houtcome
  | ok a => rw [houtcome] at hfault; cases hfault

theorem tracesFrom_checkValue {type : ValueType} {value : Expr}
    (hkind : s.cursor.here.kind = .assign) (hpasses : s.advance.Passes 0 t)
    (hfolded : value.IsFolded) :
    (checkValue s.advance.cursor.here.span.start type value).TracesFrom s t := by
  have hsettle := tracesFrom_settle_check hkind hpasses
    fun fault (h : (t.symbols.checkValue type value).outcome = .error fault) =>
      Symbols.stage_of_checkValue hfolded h
  exact ⟨hsettle.forward, hsettle.origin⟩

theorem tracesFrom_checkAssignment {name : String} {value : Expr}
    (hkind : s.cursor.here.kind = .assign) (hpasses : s.advance.Passes 0 t)
    (hfolded : value.IsFolded) :
    (checkAssignment s.advance.cursor.here.span.start name value).TracesFrom s t := by
  have hsettle := tracesFrom_settle_check hkind hpasses
    fun fault (h : (t.symbols.checkAssignment name value).outcome = .error fault) =>
      Symbols.stage_of_checkAssignment hfolded h
  exact ⟨hsettle.forward, hsettle.origin⟩

/-- A value behind an assignment sign is read, folded and checked. -/
theorem tracesFrom_value {check : Position → Expr → Parse Expr} {f : Expr → Parse Stmt}
    (hbinary : (production .binary).Traces)
    (hcheck : ∀ value t, value.IsFolded → s.advance.Passes 0 t →
      (check s.advance.cursor.here.span.start value).TracesFrom s t)
    (hf : ∀ value, (f value).Traces) :
    (position >>= fun start => Parse.expression production .binary >>= fun e =>
      Parse.fold e >>= fun value => check start value >>= f).TracesFrom s s.advance := by
  have hs := s.passes_advance_zero
  refine (traces_position.after hs).bind fun start t hstart _ => ?_
  obtain ⟨rfl, rfl⟩ := gives_position.1 hstart
  refine (hbinary.onlyExpr.after hs).bind fun e u he hu => ?_
  refine ((traces_fold e).after (hs.trans hu)).bind fun value v hfold _ => ?_
  obtain ⟨hvalue, rfl⟩ := gives_fold.1 hfold
  refine (hcheck value v (Expr.isFolded_of_fold hvalue) hu).bind fun value w _ hw => ?_
  exact (hf value).after ((hs.trans hu).trans hw)

end Parts

end Parse

namespace Rule

open Parse

variable {production : Production → Parse Stmt} {statement : Parse Stmt}

/-! ### Rules -/

theorem traces_declarationRule (hbinary : (production .binary).Traces)
    (hassignment : (production .assignment).Traces) : (declarationRule production).Traces := by
  refine hassignment.keyword fun _ => traces_mutability.bind fun isMutable => ?_
  refine (traces_expect _ (by decide)).bind fun name => ?_
  refine (traces_expect _ (by decide)).bind fun _ => traces_declaredType.bind fun type => ?_
  intro s
  refine (traces_expect .assign (by decide)).bind_at fun token t htoken _ => ?_
  obtain ⟨hkind, -, rfl⟩ := gives_expect.1 htoken
  refine tracesFrom_value hbinary (fun value t hfolded hpasses => ?_) fun value => ?_
  · exact tracesFrom_checkValue hkind hpasses hfolded
  · exact (traces_expect _ (by decide)).bind fun _ => (traces_declare _ _).bind fun _ =>
      traces_pure _

theorem traces_assignmentRule (hbinary : (production .binary).Traces) :
    (assignmentRule production).Traces := by
  refine hbinary.onlyExpr.bind fun target s => ?_
  refine traces_kind.bind_at fun k t hk _ => ?_
  obtain ⟨rfl, rfl⟩ := gives_kind.1 hk
  split
  · rename_i name hkind
    refine traces_advance.bind_at fun token u htoken _ => ?_
    obtain ⟨-, rfl⟩ := gives_advance.1 htoken
    refine tracesFrom_value hbinary (fun value t hfolded hpasses => ?_) fun value => ?_
    · exact tracesFrom_checkAssignment hkind hpasses hfolded
    · exact traces_terminator.bind fun _ => traces_pure _
  · exact traces_terminator.bind (fun _ => traces_pure _) t

theorem traces_forRule (hproduction : ∀ q, (production q).Traces) (hstatement : statement.Traces) :
    (forRule production statement).Traces := by
  refine (hproduction _).keyword fun _ => (traces_expect _ (by decide)).bind fun _ => ?_
  refine (hproduction _).bind fun init => (hproduction _).condition.bind fun guard => ?_
  refine (traces_expect _ (by decide)).bind fun _ => (hproduction _).bind fun update => ?_
  exact (traces_expect _ (by decide)).bind fun _ => hstatement.loopBody.bind fun _ => traces_pure _

theorem traces_levelRule (hproduction : ∀ q, (production q).Traces) (whole operand : Production)
    (operators : List String) : (levelRule production whole operand operators).Traces := by
  refine (hproduction _).onlyExpr.bind fun left => traces_current.bind fun token => ?_
  split
  · refine traces_advance.bind fun _ => (hproduction _).onlyExpr.bind fun right => ?_
    exact (traces_fold _).bind fun _ => traces_pure _
  · exact traces_pure _

theorem traces_unaryRule (hprimary : (production .primary).Traces) :
    (unaryRule production).Traces := by
  refine fun s => traces_current.bind_at fun token t htoken _ => ?_
  obtain ⟨rfl, rfl⟩ := gives_current.1 htoken
  split
  · rename_i hkind
    refine traces_advance.bind_at fun token u htoken hu => ?_
    obtain ⟨-, rfl⟩ := gives_advance.1 htoken
    split
    · rename_i hvalue
      exact ⟨.refl _, fun report hreport _ => by
        cases hreport; exact ⟨t, .refl t, .operator t hkind hvalue⟩⟩
    · refine Traces.after (hprimary.onlyExpr.bind fun term => ?_) hu
      exact (traces_fold _).bind fun _ => traces_pure _
  split
  · exact traces_advance.bind (fun _ => hprimary.onlyExpr.bind fun term =>
      (traces_fold _).bind fun _ => traces_negated _) t
  · exact hprimary t

/-- The tokens that cannot be read are characters and strings. -/
theorem traces_leafRule {d : Dialect} {p otherwise : Production} {wanted : TokenKind}
    {read : Token → Except Fault Expr}
    (hrule : d.grammar.rule? p = some (.leaf wanted read otherwise))
    (hotherwise : (production otherwise).Traces) :
    (leafRule production wanted read otherwise).Traces := by
  have hread : (wanted = .str ∧ read = readStr) ∨ (wanted = .char ∧ read = readChar) ∨
      ∀ token fault, read token ≠ .error fault := by
    cases d <;> cases p <;> cases hrule <;> simp [readBoolean, readIdentifier]
  refine fun s => traces_kind.bind_at fun k t hk _ => ?_
  obtain ⟨rfl, rfl⟩ := gives_kind.1 hk
  split
  · exact hotherwise t
  · rename_i hkind
    refine traces_advance.bind_at fun token u htoken hu => ?_
    obtain ⟨rfl, rfl⟩ := gives_advance.1 htoken
    refine (traces_position.after hu).bind fun q v hq _ => ?_
    obtain ⟨rfl, rfl⟩ := gives_position.1 hq
    refine TracesFrom.bind (tracesFrom_settle fun fault hfault => ?_) fun value w hvalue hw =>
      (traces_pure _).after (hu.trans hw)
    refine ⟨t, .refl t, ?_⟩
    rcases hread with ⟨rfl, rfl⟩ | ⟨rfl, rfl⟩ | hok
    · exact .str t (not_not.1 hkind) hfault
    · exact .char t (not_not.1 hkind) hfault
    · exact absurd hfault (hok _ fault)

/-- Every fault that a rule of a dialect finds has an origin, provided this is so for the
productions and statements inside. -/
theorem traces_parse {d : Dialect} {p : Production} {rule : Rule}
    (hrule : d.grammar.rule? p = some rule) (hproduction : ∀ q, (production q).Traces)
    (hstatement : statement.Traces) : (rule.parse production statement).Traces := by
  cases rule with
  | conditional =>
    refine (hproduction _).keyword fun _ => (hproduction _).condition.bind fun guard => ?_
    refine hstatement.scope.bind fun body => Traces.bind (fun s => ?_) fun chain => traces_pure _
    have hs := (hproduction .binary).elseBranches hstatement s.cursor.remaining.length
      (Chain.push [] body (some guard)) s
    exact ⟨hs.forward, hs.origin⟩
  | forLoop => exact traces_forRule hproduction hstatement
  | whileLoop =>
    refine (hproduction _).keyword fun _ => (hproduction _).condition.bind fun guard => ?_
    exact hstatement.loopBody.bind fun _ => traces_pure _
  | loop =>
    exact (hproduction _).keyword fun _ => hstatement.loopBody.bind fun _ => traces_pure _
  | jump target =>
    refine (hproduction _).keyword fun _ => ?_
    exact (traces_expect _ (by decide)).bind fun _ => traces_pure _
  | declaration => exact traces_declarationRule (hproduction _) (hproduction _)
  | assignment => exact traces_assignmentRule (hproduction _)
  | forward target => exact hproduction target
  | level whole operand operators => exact traces_levelRule hproduction whole operand operators
  | unary => exact traces_unaryRule (hproduction _)
  | parenthesis =>
    refine (hproduction _).keyword fun _ => Traces.bind (Traces.onlyExpr ?_) fun _ => traces_pure _
    exact hstatement.bind fun stmt => (traces_expect _ (by decide)).bind fun _ => traces_pure _
  | leaf wanted read otherwise => exact traces_leafRule hrule (hproduction otherwise)
  | number => exact traces_numberRule

end Rule

/-! ### Dialects -/

/-- A fault that is due to the program is none of the grammar. -/
theorem Fault.OfProgram.stage_ne {fault : Fault} (h : fault.OfProgram) :
    fault.stage ≠ .grammar := by
  obtain ⟨hroot, hrule⟩ := h
  cases fault with
  | noRootProduction => exact absurd rfl hroot
  | unregisteredProduction name => exact absurd rfl (hrule name)
  | _ => simp [Fault.stage]

namespace Dialect

open Parse

theorem traces_start (d : Dialect) {production : Production → Parse Stmt}
    (h : ∀ q, (production q).Traces) : (d.grammar.start production).Traces := by
  unfold Grammar.start
  split
  · exact traces_fail_grammar rfl
  · exact h _

theorem traces_parseWithin (d : Dialect) (depth : Nat) (p : Production) :
    (d.grammar.parseWithin depth p).Traces := by
  induction depth generalizing p with
  | zero => exact traces_exhausted
  | succ depth ih =>
    rw [Grammar.parseWithin_succ, Grammar.unfolded]
    split
    · exact traces_fail_grammar rfl
    · rename_i rule hrule
      refine traces_current.bind fun token => (traces_tell _).bind fun _ => ?_
      exact rule.traces_parse hrule ih (d.traces_start ih)

theorem traces_production (d : Dialect) (p : Production) : (d.grammar.production p).Traces := by
  intro s
  have hs := d.traces_parseWithin s.depthBound p s
  constructor
  · rw [Grammar.run_production]
    exact hs.forward
  · rw [Grammar.run_production]
    exact hs.origin

theorem traces_program (d : Dialect) : d.grammar.program.Traces :=
  (d.traces_start d.traces_production).many

/-- Every fault of a parse has an origin at one of the tokens that were reached. -/
theorem origin_of_parse {d : Dialect} {tokens : List Token} {file : String} {report : Report}
    (h : (d.parse tokens file).result = .error (.fault report)) :
    ∃ s, (State.ofTokens tokens file).Passes 0 s ∧
      Origin s report (d.parse tokens file).state := by
  obtain ⟨_, hreport, hprogram⟩ :=
    (d.proceeds_program (State.ofTokens tokens file)).ofProgram _ h
  cases hreport
  exact (d.traces_program (State.ofTokens tokens file)).origin report h hprogram.stage_ne

end Dialect

end Cascade
