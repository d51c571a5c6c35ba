import Mathlib.Tactic.Common
import Cascade.Parser.Run
import Cascade.Proofs.Acceptance

/-!
# Runs that succeed

What a parsing step gives when it succeeds, and the state it leaves behind.  A sequence of steps is
taken apart into its parts, so for every rule there is one statement of all that it can do.  What
holds of every rule, provided it holds of the productions that the rule calls for, holds of every
run of a grammar.

## Main definitions

* `State.advance` : the state one token further on.
* `Parse.Gives` : a step succeeds in a state, with a value and a state afterwards.

## Main results

* `Parse.gives_bind` : a sequence succeeds if its parts do.
* `Parse.gives_conditionalRule` and the others like it : all that a rule can do.
* `Grammar.gives_induction` : induction over the runs of a grammar.
-/

namespace Cascade

/-- The state one token further on. -/
def State.advance (s : State) : State :=
  ⟨s.cursor.advance, s.symbols⟩

@[simp] theorem State.symbols_advance (s : State) : s.advance.symbols = s.symbols := rfl

@[simp] theorem State.cursor_advance (s : State) : s.advance.cursor = s.cursor.advance := rfl

namespace Parse

variable {α β : Type}

/-- Whether a step succeeds in a state, with the given value and the given state afterwards. -/
def Gives (p : Parse α) (s : State) (a : α) (s' : State) : Prop :=
  (p.run s).result = .ok a ∧ (p.run s).state = s'

/-! ### Primitive steps -/

theorem gives_pure {a b : α} {s s' : State} : (pure a : Parse α).Gives s b s' ↔ b = a ∧ s' = s := by
  simp only [Gives, run_pure, Except.ok.injEq]
  exact and_congr eq_comm eq_comm

/-- A sequence succeeds if its parts do, one after the other. -/
theorem gives_bind {p : Parse α} {f : α → Parse β} {s s' : State} {b : β} :
    (p >>= f).Gives s b s' ↔ ∃ a t, p.Gives s a t ∧ (f a).Gives t b s' := by
  constructor
  · rintro ⟨hresult, hstate⟩
    cases h : (p.run s).result with
    | error failure =>
      rw [run_bind_of_error h] at hresult
      cases hresult
    | ok a =>
      rw [run_bind_of_ok h] at hresult hstate
      exact ⟨a, (p.run s).state, ⟨h, rfl⟩, hresult, hstate⟩
  · rintro ⟨a, t, ⟨h, rfl⟩, hresult, hstate⟩
    rw [Gives, run_bind_of_ok h]
    exact ⟨hresult, hstate⟩

theorem gives_current {s s' : State} {token : Token} :
    current.Gives s token s' ↔ token = s.cursor.here ∧ s' = s := by
  simp only [Gives, run_current, Except.ok.injEq]
  exact and_congr eq_comm eq_comm

theorem gives_kind {s s' : State} {k : TokenKind} :
    kind.Gives s k s' ↔ k = s.cursor.here.kind ∧ s' = s := by
  simp only [Gives, run_kind, Except.ok.injEq]
  exact and_congr eq_comm eq_comm

theorem gives_position {s s' : State} {q : Position} :
    position.Gives s q s' ↔ q = s.cursor.here.span.start ∧ s' = s := by
  simp only [Gives, run_position, Except.ok.injEq]
  exact and_congr eq_comm eq_comm

theorem gives_advance {s s' : State} {token : Token} :
    advance.Gives s token s' ↔ token = s.cursor.here ∧ s' = s.advance := by
  simp only [Gives, run_advance, Except.ok.injEq]
  exact and_congr eq_comm eq_comm

theorem not_gives_fail {fault : Fault} {s s' : State} {a : α} :
    ¬(fail fault : Parse α).Gives s a s' := by
  rintro ⟨hresult, -⟩
  cases hresult

theorem not_gives_exhausted {s s' : State} {a : α} : ¬(exhausted : Parse α).Gives s a s' := by
  rintro ⟨hresult, -⟩
  cases hresult

theorem gives_tell {event : Event} {s s' : State} {u : Unit} :
    (tell event).Gives s u s' ↔ s' = s := by
  simp only [Gives, run_tell, true_and]
  exact eq_comm

theorem gives_expect {expected : TokenKind} {description : String} {s s' : State} {token : Token} :
    (expect expected description).Gives s token s' ↔
      s.cursor.here.kind = expected ∧ token = s.cursor.here ∧ s' = s.advance := by
  rw [Gives, run_expect]
  by_cases h : s.cursor.here.kind = expected
  · rw [if_pos h]
    simp only [h, true_and, Except.ok.injEq]
    exact and_congr eq_comm eq_comm
  · rw [if_neg h]
    simp [h]

theorem gives_declare {name : String} {type : ValueType} {s s' : State} {u : Unit} :
    (declare name type).Gives s u s' ↔ s' = ⟨s.cursor, s.symbols.declare name type⟩ := by
  constructor
  · rintro ⟨-, rfl⟩
    rfl
  · rintro rfl
    exact ⟨rfl, rfl⟩

theorem gives_settle {q : Position} {result : Except Fault α} {events : List Event} {s s' : State}
    {a : α} : (settle q result events).Gives s a s' ↔ result = .ok a ∧ s' = s := by
  constructor
  · rintro ⟨hresult, rfl⟩
    cases result with
    | error fault => cases hresult
    | ok b =>
      cases hresult
      exact ⟨rfl, rfl⟩
  · rintro ⟨rfl, rfl⟩
    exact ⟨rfl, rfl⟩

theorem gives_fold {e value : Expr} {s s' : State} :
    (fold e).Gives s value s' ↔ e.fold = .ok value ∧ s' = s := by
  simp only [fold, gives_bind, gives_position, gives_settle]
  constructor
  · rintro ⟨q, t, ⟨-, rfl⟩, h, rfl⟩
    exact ⟨h, rfl⟩
  · rintro ⟨h, rfl⟩
    exact ⟨_, _, ⟨rfl, rfl⟩, h, rfl⟩

/-- Checking a value succeeds if the value is accepted. -/
theorem gives_checkValue {q : Position} {type : ValueType} {e value : Expr} {s s' : State} :
    (checkValue q type e).Gives s value s' ↔
      s.symbols.Accepts type e ∧ value = (s.symbols.checkValue type e).after ∧ s' = s := by
  have hcheck : (checkValue q type e).Gives s value s' ↔
      (settle q ((s.symbols.checkValue type e).outcome.map fun _ =>
        (s.symbols.checkValue type e).after) (s.symbols.checkValue type e).events).Gives s value s' :=
    Iff.rfl
  rw [hcheck, gives_settle, Symbols.Accepts]
  cases (s.symbols.checkValue type e).outcome with
  | error fault => simp [Except.map]
  | ok u =>
    simp only [Except.map, Except.ok.injEq, true_and]
    exact and_congr eq_comm Iff.rfl

/-- Checking a value for a variable succeeds if the value is accepted for it. -/
theorem gives_checkAssignment {q : Position} {name : String} {e value : Expr} {s s' : State} :
    (checkAssignment q name e).Gives s value s' ↔
      s.symbols.AcceptsFor name e ∧ value = (s.symbols.checkAssignment name e).after ∧ s' = s := by
  have hcheck : (checkAssignment q name e).Gives s value s' ↔
      (settle q ((s.symbols.checkAssignment name e).outcome.map fun _ =>
        (s.symbols.checkAssignment name e).after)
          (s.symbols.checkAssignment name e).events).Gives s value s' :=
    Iff.rfl
  rw [hcheck, gives_settle, Symbols.AcceptsFor]
  cases (s.symbols.checkAssignment name e).outcome with
  | error fault => simp [Except.map]
  | ok type =>
    simp only [Except.map, Except.ok.injEq, exists_eq', true_and]
    exact and_congr eq_comm Iff.rfl

theorem gives_ite {c : Prop} [Decidable c] {p q : Parse α} {s s' : State} {a : α} :
    (if c then p else q).Gives s a s' ↔ (c ∧ p.Gives s a s') ∨ (¬c ∧ q.Gives s a s') := by
  by_cases h : c <;> simp [h]

/-! ### Parts of statements -/

variable {production : Production → Parse Stmt} {statement : Parse Stmt}

/-- Only an expression is given where nothing else is acceptable. -/
theorem gives_onlyExpr {step : Parse Stmt} {s s' : State} {e : Expr} :
    (onlyExpr step).Gives s e s' ↔ step.Gives s (.expr e) s' := by
  simp only [onlyExpr, gives_bind]
  constructor
  · rintro ⟨stmt, t, h, hmatch⟩
    cases stmt with
    | expr value =>
      obtain ⟨rfl, rfl⟩ := gives_pure.1 hmatch
      exact h
    | assign name value => exact absurd hmatch not_gives_fail
    | declare name type isMutable value => exact absurd hmatch not_gives_fail
  · intro h
    exact ⟨.expr e, s', h, gives_pure.2 ⟨rfl, rfl⟩⟩

theorem gives_expression {p : Production} {s s' : State} {e : Expr} :
    (expression production p).Gives s e s' ↔ (production p).Gives s (.expr e) s' :=
  gives_onlyExpr

/-- A statement ends behind a semicolon or in front of a closing parenthesis. -/
theorem gives_terminator {s s' : State} {u : Unit} :
    terminator.Gives s u s' ↔
      (s.cursor.here.kind = .semicolon ∧ s' = s.advance) ∨
        (s.cursor.here.kind = .closeParen ∧ s' = s) := by
  simp only [terminator, gives_bind, gives_current, gives_ite, gives_advance, gives_pure,
    not_gives_fail, and_assoc, exists_and_left, exists_eq_left, true_and, and_false, false_or,
    ne_eq, not_not]
  constructor
  · rintro (⟨hsemicolon, rfl⟩ | ⟨-, hparen, rfl⟩)
    · exact .inl ⟨hsemicolon, rfl⟩
    · exact .inr ⟨hparen, rfl⟩
  · rintro (⟨hsemicolon, rfl⟩ | ⟨hparen, rfl⟩)
    · exact .inl ⟨hsemicolon, rfl⟩
    · exact .inr ⟨by simp [hparen], hparen, rfl⟩

theorem gives_condition {s s' : State} {value : Expr} :
    (condition production).Gives s value s' ↔
      ∃ e, (production .binary).Gives s (.expr e) s' ∧ e.fold = .ok value := by
  simp only [condition, gives_bind, gives_expression, gives_fold]
  constructor
  · rintro ⟨e, t, h, hfold, rfl⟩
    exact ⟨e, h, hfold⟩
  · rintro ⟨e, h, hfold⟩
    exact ⟨e, s', h, hfold, rfl⟩

/-- A step that succeeds several times in a row, with the given values. -/
inductive GivesAll (step : Parse α) : State → List α → State → Prop
  | nil (s : State) : GivesAll step s [] s
  | cons {s t s' : State} {a : α} {as : List α} (first : step.Gives s a t)
      (rest : GivesAll step t as s') : GivesAll step s (a :: as) s'

theorem givesAll_of_manyWithin {stop : TokenKind → Bool} {step : Parse α} {fuel : Nat}
    {s s' : State} {as : List α} (h : (manyWithin stop step fuel).Gives s as s') :
    step.GivesAll s as s' ∧ stop s'.cursor.here.kind = true := by
  induction fuel generalizing s as with
  | zero => exact absurd h not_gives_exhausted
  | succ fuel ih =>
    simp only [manyWithin, gives_bind, gives_kind, gives_ite, gives_pure, and_assoc,
      exists_and_left, exists_eq_left] at h
    rcases h with ⟨hstop, rfl, rfl⟩ | ⟨-, a, t, hstep, rest, u, hrest, rfl, rfl⟩
    · exact ⟨.nil s', hstop⟩
    · obtain ⟨hall, hstop⟩ := ih hrest
      exact ⟨.cons hstep hall, hstop⟩

/-- A repeated step succeeds several times in a row and ends where it has to stop. -/
theorem givesAll_of_many {stop : TokenKind → Bool} {step : Parse α} {s s' : State} {as : List α}
    (h : (many stop step).Gives s as s') :
    step.GivesAll s as s' ∧ stop s'.cursor.here.kind = true := by
  have hwithin : (manyWithin stop step s.cursor.remaining.length).Gives s as s' := h
  exact givesAll_of_manyWithin hwithin

/-- A body is a row of statements between braces. -/
theorem givesAll_of_scope {s s' : State} {body : List Stmt}
    (h : (scope statement).Gives s body s') :
    ∃ t, s.cursor.here.kind = .openCurly ∧ statement.GivesAll s.advance body t ∧
      t.cursor.here.kind = .closeCurly ∧ s' = t.advance := by
  simp only [scope, gives_bind, gives_expect, gives_pure, and_assoc, exists_and_left,
    exists_eq_left] at h
  obtain ⟨hopen, body, t, hmany, hclose, rfl, rfl⟩ := h
  exact ⟨t, hopen, (givesAll_of_many hmany).1, hclose, rfl⟩

/-- A loop has a body, and a fallback if the keyword for it follows. -/
theorem gives_loopBody {s s' : State} {body : List Stmt} {fallback : Option (List Stmt)} :
    (loopBody statement).Gives s (body, fallback) s' ↔
      ∃ t, (scope statement).Gives s body t ∧
        ((t.cursor.here.kind = .kwOr ∧ ∃ other, (scope statement).Gives t.advance other s' ∧
            fallback = some other) ∨
          (t.cursor.here.kind ≠ .kwOr ∧ fallback = none ∧ s' = t)) := by
  simp only [loopBody, gives_bind, gives_kind, gives_ite, gives_advance, gives_pure, and_assoc,
    exists_and_left, exists_eq_left, Prod.mk.injEq]
  constructor
  · rintro ⟨a, t, hscope, ⟨hor, other, u, hother, rfl, rfl, rfl⟩ | ⟨hor, rfl, rfl, rfl⟩⟩
    · exact ⟨t, hscope, .inl ⟨hor, other, hother, rfl⟩⟩
    · exact ⟨s', hscope, .inr ⟨hor, rfl, rfl⟩⟩
  · rintro ⟨t, hscope, ⟨hor, other, hother, rfl⟩ | ⟨hor, rfl, rfl⟩⟩
    · exact ⟨body, t, hscope, .inl ⟨hor, other, s', hother, rfl, rfl, rfl⟩⟩
    · exact ⟨body, s', hscope, .inr ⟨hor, rfl, rfl, rfl⟩⟩

/-! ### Rules for statements -/

/-- The branches of a conditional come to an end, or go on with a last resort or with one more
condition. -/
theorem gives_elseBranches {fuel : Nat} {chain chain' : Chain} {s s' : State}
    (h : (elseBranches production statement (fuel + 1) chain).Gives s chain' s') :
    (s.cursor.here.kind ≠ .kwElse ∧ chain' = chain ∧ s' = s) ∨
    (s.cursor.here.kind = .kwElse ∧ s.advance.cursor.here.kind ≠ .kwIf ∧
      ∃ body, (scope statement).Gives s.advance body s' ∧ chain' = chain.push body none) ∨
    (s.cursor.here.kind = .kwElse ∧ s.advance.cursor.here.kind = .kwIf ∧
      ∃ guard t body u, (condition production).Gives s.advance.advance guard t ∧
        (scope statement).Gives t body u ∧
        (elseBranches production statement fuel (chain.push body (some guard))).Gives u chain' s') := by
  simp only [elseBranches, gives_bind, gives_kind, gives_ite, gives_advance, gives_pure, and_assoc,
    exists_and_left, exists_eq_left, ne_eq, not_not] at h
  rcases h with h | ⟨helse, ⟨hif, body, t, hbody, rfl, rfl⟩ | ⟨hif, hrest⟩⟩
  · exact .inl h
  · exact .inr (.inl ⟨helse, hif, body, hbody, rfl⟩)
  · obtain ⟨guard, t, hguard, body, u, hbody, hrest⟩ := hrest
    exact .inr (.inr ⟨helse, hif, guard, t, body, u, hguard, hbody, hrest⟩)

theorem gives_conditionalRule {s s' : State} {stmt : Stmt}
    (h : (conditionalRule production statement).Gives s stmt s') :
    (s.cursor.here.kind ≠ .kwIf ∧ (production .forLoop).Gives s stmt s') ∨
    (s.cursor.here.kind = .kwIf ∧
      ∃ guard t body u fuel chain, (condition production).Gives s.advance guard t ∧
        (scope statement).Gives t body u ∧
        (elseBranches production statement fuel (Chain.push [] body (some guard))).Gives u chain s' ∧
        stmt = .expr (.conditional chain)) := by
  simp only [conditionalRule, gives_bind, gives_kind, gives_ite, gives_advance, gives_pure,
    and_assoc, exists_and_left, exists_eq_left, ne_eq, not_not] at h
  rcases h with h | ⟨hif, guard, t, hguard, body, u, hbody, chain, v, hchain, rfl, rfl⟩
  · exact .inl h
  · exact .inr ⟨hif, guard, t, body, u, _, chain, hguard, hbody, hchain, rfl⟩

theorem gives_forRule {s s' : State} {stmt : Stmt}
    (h : (forRule production statement).Gives s stmt s') :
    (s.cursor.here.kind ≠ .kwFor ∧ (production .whileLoop).Gives s stmt s') ∨
    (s.cursor.here.kind = .kwFor ∧ s.advance.cursor.here.kind = .openParen ∧
      ∃ init t guard u update v body fallback,
        (production .declaration).Gives s.advance.advance init t ∧
        (condition production).Gives t guard u ∧ u.cursor.here.kind = .semicolon ∧
        (production .assignment).Gives u.advance update v ∧ v.cursor.here.kind = .closeParen ∧
        (loopBody statement).Gives v.advance (body, fallback) s' ∧
        stmt = .expr (.forLoop init guard update body fallback)) := by
  simp only [forRule, gives_bind, gives_kind, gives_ite, gives_advance, gives_expect, gives_pure,
    and_assoc, exists_and_left, exists_eq_left, Prod.exists, ne_eq, not_not] at h
  rcases h with h | ⟨hfor, hopen, init, t, hinit, guard, u, hguard, hsemicolon, update, v, hupdate,
    hclose, body, fallback, w, hbody, rfl, rfl⟩
  · exact .inl h
  · exact .inr ⟨hfor, hopen, init, t, guard, u, update, v, body, fallback, hinit, hguard,
      hsemicolon, hupdate, hclose, hbody, rfl⟩

theorem gives_whileRule {s s' : State} {stmt : Stmt}
    (h : (whileRule production statement).Gives s stmt s') :
    (s.cursor.here.kind ≠ .kwWhile ∧ (production .loop).Gives s stmt s') ∨
    (s.cursor.here.kind = .kwWhile ∧
      ∃ guard t body fallback, (condition production).Gives s.advance guard t ∧
        (loopBody statement).Gives t (body, fallback) s' ∧
        stmt = .expr (.whileLoop guard body fallback)) := by
  simp only [whileRule, gives_bind, gives_kind, gives_ite, gives_advance, gives_pure, and_assoc,
    exists_and_left, exists_eq_left, Prod.exists, ne_eq, not_not] at h
  rcases h with h | ⟨hwhile, guard, t, hguard, body, fallback, u, hbody, rfl, rfl⟩
  · exact .inl h
  · exact .inr ⟨hwhile, guard, t, body, fallback, hguard, hbody, rfl⟩

theorem gives_loopRule {s s' : State} {stmt : Stmt}
    (h : (loopRule production statement).Gives s stmt s') :
    (s.cursor.here.kind ≠ .kwLoop ∧ (production .breakJump).Gives s stmt s') ∨
    (s.cursor.here.kind = .kwLoop ∧
      ∃ body fallback, (loopBody statement).Gives s.advance (body, fallback) s' ∧
        stmt = .expr (.loop body fallback)) := by
  simp only [loopRule, gives_bind, gives_kind, gives_ite, gives_advance, gives_pure, and_assoc,
    exists_and_left, exists_eq_left, Prod.exists, ne_eq, not_not] at h
  rcases h with h | ⟨hloop, body, fallback, t, hbody, rfl, rfl⟩
  · exact .inl h
  · exact .inr ⟨hloop, body, fallback, hbody, rfl⟩

theorem gives_jumpRule {target : Jump} {s s' : State} {stmt : Stmt}
    (h : (jumpRule production target).Gives s stmt s') :
    (s.cursor.here.kind ≠ target.keyword ∧ (production target.otherwise).Gives s stmt s') ∨
    (s.cursor.here.kind = target.keyword ∧ s.advance.cursor.here.kind = .semicolon ∧
      stmt = .expr (.jump target) ∧ s' = s.advance.advance) := by
  simpa only [jumpRule, gives_bind, gives_kind, gives_ite, gives_advance, gives_expect, gives_pure,
    and_assoc, exists_and_left, exists_eq_left, ne_eq, not_not] using h

/-- The mark of a mutable variable is at most one token. -/
theorem gives_mutability {s s' : State} {isMutable : Bool} (h : mutability.Gives s isMutable s') :
    (isMutable = true ∧ s.cursor.here.kind = .kwMut ∧ s' = s.advance) ∨
      (isMutable = false ∧ s.cursor.here.kind ≠ .kwMut ∧ s' = s) := by
  simp only [mutability, gives_bind, gives_kind, gives_ite, gives_advance, gives_pure, and_assoc,
    exists_and_left, exists_eq_left] at h
  rcases h with ⟨hmut, rfl, rfl⟩ | ⟨hmut, rfl, rfl⟩
  · exact .inl ⟨rfl, hmut, rfl⟩
  · exact .inr ⟨rfl, hmut, rfl⟩

theorem gives_declarationRule {s s' : State} {stmt : Stmt}
    (h : (declarationRule production).Gives s stmt s') :
    (s.cursor.here.kind ≠ .kwLet ∧ (production .assignment).Gives s stmt s') ∨
    (s.cursor.here.kind = .kwLet ∧
      ∃ isMutable t type e u value,
        mutability.Gives s.advance isMutable t ∧ t.cursor.here.kind = .identifier ∧
        t.advance.cursor.here.kind = .colon ∧ t.advance.advance.cursor.here.kind = .typeName ∧
        ValueType.ofName t.advance.advance.cursor.here.value = .ok type ∧
        t.advance.advance.advance.cursor.here.kind = .assign ∧
        (production .binary).Gives t.advance.advance.advance.advance (.expr e) u ∧
        e.fold = .ok value ∧ u.symbols.Accepts type value ∧ u.cursor.here.kind = .semicolon ∧
        stmt = .declare t.cursor.here.value type isMutable (u.symbols.checkValue type value).after ∧
        s' = ⟨u.cursor.advance, u.symbols.declare t.cursor.here.value type⟩) := by
  simp only [declarationRule, declaredType, gives_bind, gives_kind, gives_ite, gives_advance,
    gives_expect, gives_settle, gives_position, gives_expression, gives_fold, gives_checkValue,
    gives_declare, gives_pure, and_assoc, exists_and_left, exists_eq_left, exists_const, ne_eq,
    not_not] at h
  rcases h with h | ⟨hlet, isMutable, t, hmut, hname, hcolon, htype, type, htypeName, hassign, e, u,
    he, value, hfold, haccepts, hsemicolon, rfl, rfl⟩
  · exact .inl h
  · exact .inr ⟨hlet, isMutable, t, type, e, u, value, hmut, hname, hcolon, htype, htypeName,
      hassign, he, hfold, haccepts, hsemicolon, rfl, rfl⟩

theorem gives_assignmentRule {s s' : State} {stmt : Stmt}
    (h : (assignmentRule production).Gives s stmt s') :
    ∃ target t, (production .binary).Gives s (.expr target) t ∧
      ((terminator.Gives t () s' ∧ stmt = .expr target) ∨
        (t.cursor.here.kind = .assign ∧
          ∃ name e u value, target = .identifier name ∧
            (production .binary).Gives t.advance (.expr e) u ∧ e.fold = .ok value ∧
            u.symbols.AcceptsFor name value ∧ terminator.Gives u () s' ∧
            stmt = .assign name (u.symbols.checkAssignment name value).after)) := by
  simp only [assignmentRule, gives_bind, gives_kind, gives_expression, and_assoc, exists_and_left,
    exists_eq_left] at h
  obtain ⟨target, t, htarget, hrest⟩ := h
  refine ⟨target, t, htarget, ?_⟩
  split at hrest
  · rename_i name hkind
    simp only [assignmentTail, gives_bind, gives_advance, gives_position, gives_expression,
      gives_fold, gives_checkAssignment, gives_pure, and_assoc, exists_and_left,
      exists_eq_left] at hrest
    obtain ⟨e, u, he, value, hfold, haccepts, _, v, hend, rfl, rfl⟩ := hrest
    exact .inr ⟨hkind, name, e, u, value, rfl, he, hfold, haccepts, hend, rfl⟩
  · simp only [gives_bind, gives_pure] at hrest
    obtain ⟨_, v, hend, rfl, rfl⟩ := hrest
    exact .inl ⟨hend, rfl⟩

/-! ### Rules for expressions -/

theorem gives_levelRule {whole operand : Production} {operators : List String} {s s' : State}
    {stmt : Stmt} (h : (levelRule production whole operand operators).Gives s stmt s') :
    ∃ left t, (production operand).Gives s (.expr left) t ∧
      ((t.cursor.here.isOperator operators = false ∧ stmt = .expr left ∧ s' = t) ∨
        (t.cursor.here.isOperator operators = true ∧
          ∃ right value, (production whole).Gives t.advance (.expr right) s' ∧
            (Expr.binary left t.cursor.here.value right).fold = .ok value ∧
            stmt = .expr value)) := by
  simp only [levelRule, gives_bind, gives_current, gives_ite, gives_advance, gives_expression,
    gives_fold, gives_pure, and_assoc, exists_and_left, exists_eq_left, Bool.not_eq_true] at h
  obtain ⟨left, t, hleft, ⟨hop, right, u, hright, value, hfold, rfl, rfl⟩ | hop⟩ := h
  · exact ⟨left, t, hleft, .inr ⟨hop, right, value, hright, hfold, rfl⟩⟩
  · exact ⟨left, t, hleft, .inl hop⟩

/-- The negative of a number is a number, and that of an unresolved term is a difference. -/
theorem gives_negated {term : Expr} {s s' : State} {stmt : Stmt}
    (h : (negated term).Gives s stmt s') :
    s' = s ∧ ((∃ x, term = .number x ∧ stmt = .expr (.number (-x))) ∨
      (term.isUnresolved = true ∧ stmt = .expr (.binary (.number 0.0) "-" term))) := by
  unfold negated at h
  split at h
  · obtain ⟨rfl, rfl⟩ := gives_pure.1 h
    exact ⟨rfl, .inl ⟨_, rfl, rfl⟩⟩
  · simp only [gives_ite, gives_pure, not_gives_fail, and_false, or_false] at h
    obtain ⟨hunresolved, rfl, rfl⟩ := h
    exact ⟨rfl, .inr ⟨hunresolved, rfl⟩⟩

theorem gives_unaryRule {s s' : State} {stmt : Stmt} (h : (unaryRule production).Gives s stmt s') :
    (s.cursor.here.kind = .unaryOperator ∧ s.cursor.here.value = "!" ∧
      ∃ term value, (production .primary).Gives s.advance (.expr term) s' ∧
        (Expr.unary "!" term).fold = .ok value ∧ stmt = .expr value) ∨
    (s.cursor.here.isOperator ["-"] = true ∧
      ∃ e term, (production .primary).Gives s.advance (.expr e) s' ∧ e.fold = .ok term ∧
        (negated term).Gives s' stmt s') ∨
    (s.cursor.here.kind ≠ .unaryOperator ∧ s.cursor.here.isOperator ["-"] = false ∧
      (production .primary).Gives s stmt s') := by
  simp only [unaryRule, gives_bind, gives_current, gives_ite, gives_advance, gives_expression,
    gives_fold, gives_pure, not_gives_fail, and_assoc, exists_and_left, exists_eq_left, and_false,
    false_or, ne_eq, not_not, Bool.not_eq_true] at h
  rcases h with ⟨hnot, hvalue, term, t, hterm, value, hfold, rfl, rfl⟩ |
    ⟨hnot, ⟨hminus, e, t, he, term, hfold, hneg⟩ | ⟨hminus, hprimary⟩⟩
  · rw [hvalue] at hfold
    exact .inl ⟨hnot, hvalue, term, value, hterm, hfold, rfl⟩
  · obtain ⟨rfl, -⟩ := gives_negated hneg
    exact .inr (.inl ⟨hminus, e, term, he, hfold, hneg⟩)
  · exact .inr (.inr ⟨hnot, hminus, hprimary⟩)

theorem gives_parenthesisRule {s s' : State} {stmt : Stmt}
    (h : (parenthesisRule production statement).Gives s stmt s') :
    (s.cursor.here.kind ≠ .openParen ∧ (production .str).Gives s stmt s') ∨
    (s.cursor.here.kind = .openParen ∧
      ∃ e t, statement.Gives s.advance (.expr e) t ∧ t.cursor.here.kind = .closeParen ∧
        stmt = .expr e ∧ s' = t.advance) := by
  simp only [parenthesisRule, gives_bind, gives_kind, gives_ite, gives_advance, gives_onlyExpr,
    gives_expect, gives_pure, and_assoc, exists_and_left, exists_eq_left, ne_eq, not_not] at h
  rcases h with h | ⟨hopen, e, t, ⟨_, u, hstmt, hclose, rfl, rfl⟩, rfl, rfl⟩
  · exact .inl h
  · exact .inr ⟨hopen, e, u, hstmt, hclose, rfl, rfl⟩

theorem gives_leafRule {wanted : TokenKind} {read : Token → Except Fault Expr}
    {otherwise : Production} {s s' : State} {stmt : Stmt}
    (h : (leafRule production wanted read otherwise).Gives s stmt s') :
    (s.cursor.here.kind ≠ wanted ∧ (production otherwise).Gives s stmt s') ∨
    (s.cursor.here.kind = wanted ∧
      ∃ e, read s.cursor.here = .ok e ∧ stmt = .expr e ∧ s' = s.advance) := by
  simp only [leafRule, gives_bind, gives_kind, gives_ite, gives_advance, gives_position,
    gives_settle, gives_pure, and_assoc, exists_and_left, exists_eq_left, ne_eq, not_not] at h
  rcases h with h | ⟨hwanted, e, he, rfl, rfl⟩
  · exact .inl h
  · exact .inr ⟨hwanted, e, he, rfl, rfl⟩

theorem gives_numberRule {s s' : State} {stmt : Stmt} (h : numberRule.Gives s stmt s') :
    s.cursor.here.kind = .number ∧
      ∃ e, readNumber s.cursor.here = .ok e ∧ stmt = .expr e ∧ s' = s.advance := by
  simp only [numberRule, gives_bind, gives_current, gives_ite, gives_advance, gives_settle,
    gives_pure, not_gives_fail, and_assoc, exists_and_left, exists_eq_left, and_false, false_or,
    ne_eq, not_not] at h
  obtain ⟨hnumber, e, he, rfl, rfl⟩ := h
  exact ⟨hnumber, e, he, rfl, rfl⟩

end Parse

/-! ### Single tokens -/

/-- The rules for single tokens that the dialects use. -/
theorem Dialect.read_of_leaf {d : Dialect} {p otherwise : Production} {kind : TokenKind}
    {read : Token → Except Fault Expr}
    (h : d.grammar.rule? p = some (.leaf kind read otherwise)) :
    read = readStr ∨ read = readChar ∨ read = readBoolean ∨
      kind = .identifier ∧ read = readIdentifier := by
  cases d <;> cases p <;> cases h <;> simp

/-- A number token is read as a number. -/
theorem exists_of_readNumber {token : Token} {e : Expr} (h : readNumber token = .ok e) :
    ∃ value, Decimal.readNumber? token.value = some value ∧ e = .number value := by
  unfold readNumber at h
  split at h
  · cases h
    exact ⟨_, by assumption, rfl⟩
  · cases h

/-- A single token is read as a literal, or else it is an identifier and read as its name. -/
theorem Dialect.plain_of_leaf {d : Dialect} {p otherwise : Production} {kind : TokenKind}
    {read : Token → Except Fault Expr} (h : d.grammar.rule? p = some (.leaf kind read otherwise))
    {token : Token} {e : Expr} (hread : read token = .ok e) :
    (kind = .identifier ∧ e = .identifier token.value) ∨ e.isLiteral = true := by
  rcases read_of_leaf h with rfl | rfl | rfl | ⟨hkind, rfl⟩
  · unfold readStr at hread
    cases hquoted : readQuoted '"' token.value with
    | error fault => rw [hquoted] at hread; cases hread
    | ok text => rw [hquoted] at hread; cases hread; exact .inr rfl
  · unfold readChar at hread
    cases hquoted : readQuoted '\'' token.value with
    | error fault => rw [hquoted] at hread; cases hread
    | ok text =>
      rw [hquoted] at hread
      -- Only a single character between the quotes is read.
      rcases text with _ | ⟨c, _ | ⟨c', rest⟩⟩ <;> cases hread
      exact .inr rfl
  · cases hread
    exact .inr rfl
  · cases hread
    exact .inl ⟨hkind, rfl⟩

/-! ### Induction over runs -/

namespace Grammar

open Parse

theorem gives_start {g : Grammar} {production : Production → Parse Stmt} {s s' : State}
    {stmt : Stmt} (h : (g.start production).Gives s stmt s') : ∃ root, (production root).Gives s stmt s' := by
  unfold start at h
  cases hroot : g.root? with
  | none =>
    rw [hroot] at h
    exact absurd h not_gives_fail
  | some root =>
    rw [hroot] at h
    exact ⟨root, h⟩

/-- What every rule hands on from the productions and statements that it calls for holds of every
production that succeeds. -/
theorem gives_induction (g : Grammar) {motive : State → Stmt → State → Prop}
    (step : ∀ (production : Production → Parse Stmt) (statement : Parse Stmt),
      (∀ p s stmt s', (production p).Gives s stmt s' → motive s stmt s') →
      (∀ s stmt s', statement.Gives s stmt s' → motive s stmt s') →
      ∀ p rule, g.rule? p = some rule →
        ∀ s stmt s', (rule.parse production statement).Gives s stmt s' → motive s stmt s')
    {p : Production} {s s' : State} {stmt : Stmt} (h : (g.production p).Gives s stmt s') :
    motive s stmt s' := by
  have hwithin : ∀ depth p s stmt s', (g.parseWithin depth p).Gives s stmt s' →
      motive s stmt s' := by
    intro depth
    induction depth with
    | zero => exact fun p s stmt s' h => absurd h not_gives_exhausted
    | succ depth ih =>
      intro p s stmt s' h
      rw [parseWithin] at h
      cases hrule : g.rule? p with
      | none =>
        rw [hrule] at h
        exact absurd h not_gives_fail
      | some rule =>
        simp only [hrule, gives_bind, gives_current, gives_tell, and_assoc, exists_and_left,
          exists_eq_left, exists_const] at h
        refine step _ _ ih ?_ p rule hrule s stmt s' h
        intro s stmt s' hstart
        obtain ⟨root, hroot⟩ := gives_start hstart
        exact ih root s stmt s' hroot
  rw [Gives, run_production] at h
  exact hwithin s.depthBound p s stmt s' h

end Grammar

end Cascade
