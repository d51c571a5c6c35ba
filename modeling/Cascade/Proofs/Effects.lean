import Mathlib.Tactic.Common
import Cascade.Proofs.Progress

/-!
# What steps do to the state

A step leaves a state behind whether it succeeds or fails.  What holds between the state before and
the state after holds of a sequence of steps if it can be put together from its parts; and since
apart from declarations steps only move on, a relation that allows for moving on and for complete
declarations is kept by every production, whatever the grammar is.

## Main definitions

* `State.Frame` : a relation between states that allows for moving on.
* `Parse.Keeps` : a step keeps to a relation, whether it succeeds or fails.
* `Parse.FailsInto` : what a step leaves behind when it fails.
* `Rule.nests` : the rules that may call for statements.

## Main results

* `Rule.keeps_parse` : a rule keeps to a relation if the productions that it calls for do.
* `Grammar.keeps_production` : so does every production of any grammar.
-/

namespace Cascade

/-- A relation between states that allows for moving on, step after step. -/
structure State.Frame (R : State → State → Prop) : Prop where
  refl : ∀ s, R s s
  trans : ∀ {s t u}, R s t → R t u → R s u
  advance : ∀ s : State, R s s.advance

namespace Parse

variable {α β : Type}

/-- Whether the state that a step leaves behind is related to the one before, whether the step
succeeds or fails. -/
def Keeps (R : State → State → Prop) (p : Parse α) : Prop :=
  ∀ s, R s (p.run s).state

/-- Whether a step that fails in a state leaves one of the given states behind. -/
def FailsInto (Q : State → Prop) (s : State) (p : Parse α) : Prop :=
  ∀ failure, (p.run s).result = .error failure → Q (p.run s).state

variable {Q : State → Prop} {s : State}

/-- A step is known by what it does when it succeeds and when it fails. -/
theorem FailsInto.state {p : Parse α} (h : p.FailsInto Q s)
    (hgives : ∀ a t, p.Gives s a t → Q t) : Q (p.run s).state := by
  cases hresult : (p.run s).result with
  | error failure => exact h failure hresult
  | ok a => exact hgives a _ ⟨hresult, rfl⟩

/-- A step that succeeds leaves nothing to ask for. -/
theorem failsInto_of_ok {p : Parse α} {a : α} (h : (p.run s).result = .ok a) : p.FailsInto Q s := by
  intro failure hfailure
  rw [h] at hfailure
  cases hfailure

/-- A sequence fails in its first part or in its second one. -/
theorem FailsInto.bind {p : Parse α} {f : α → Parse β} (h : p.FailsInto Q s)
    (hf : ∀ a t, p.Gives s a t → (f a).FailsInto Q t) : (p >>= f).FailsInto Q s := by
  intro failure hfailure
  cases hresult : (p.run s).result with
  | error first =>
    rw [run_bind_of_error hresult]
    exact h first hresult
  | ok a =>
    rw [run_bind_of_ok hresult] at hfailure ⊢
    exact hf a _ ⟨hresult, rfl⟩ failure hfailure

/-- A step that leaves the state as it is may come first if the state is one that may be left
behind. -/
theorem FailsInto.bind_of_stays {p : Parse α} {f : α → Parse β} (h : (p.run s).state = s) (hs : Q s)
    (hf : ∀ a, (f a).FailsInto Q s) : (p >>= f).FailsInto Q s := by
  refine FailsInto.bind (fun _ _ => h.symm ▸ hs) fun a t hgives => ?_
  obtain ⟨-, rfl⟩ := hgives
  rw [h]
  exact hf a

theorem FailsInto.mono {Q' : State → Prop} {p : Parse α} (h : p.FailsInto Q s)
    (hQ : ∀ t, Q t → Q' t) : p.FailsInto Q' s :=
  fun failure hfailure => hQ _ (h failure hfailure)

theorem Keeps.failsInto {R : State → State → Prop} {p : Parse α} (h : p.Keeps R) (s : State) :
    p.FailsInto (R s) s :=
  fun _ _ => h s

end Parse

namespace State.Frame

open Parse

variable {α β : Type} {R : State → State → Prop} (hR : State.Frame R)

include hR

/-! ### Primitive steps -/

/-- A step that leaves the state as it is keeps to every relation. -/
theorem stays {p : Parse α} (h : ∀ s, (p.run s).state = s) : p.Keeps R := by
  intro s
  rw [h]
  exact hR.refl s

theorem bind {p : Parse α} {f : α → Parse β} (hp : p.Keeps R) (hf : ∀ a, (f a).Keeps R) :
    (p >>= f).Keeps R := by
  intro s
  refine ((hp.failsInto s).bind fun a t hgives failure _ => ?_).state fun b u hgives => ?_
  · obtain ⟨-, rfl⟩ := hgives
    exact hR.trans (hp s) (hf a _)
  · obtain ⟨a, t, ⟨-, rfl⟩, -, rfl⟩ := gives_bind.1 hgives
    exact hR.trans (hp s) (hf a _)

theorem keeps_pure (a : α) : (pure a : Parse α).Keeps R :=
  hR.stays fun _ => rfl

theorem keeps_advance : Parse.advance.Keeps R :=
  hR.advance

theorem keeps_fold (e : Expr) : (Parse.fold e).Keeps R :=
  hR.stays fun _ => rfl

theorem keeps_expect (expected : TokenKind) (description : String) :
    (expect expected description).Keeps R := by
  intro s
  rw [run_expect]
  split
  · exact hR.advance s
  · exact hR.refl s

theorem keeps_terminator : terminator.Keeps R := by
  refine hR.bind (hR.stays fun _ => rfl) fun token => ?_
  split
  · exact hR.bind hR.keeps_advance fun _ => hR.keeps_pure _
  · split
    · exact hR.stays fun _ => rfl
    · exact hR.keeps_pure _

theorem keeps_negated (term : Expr) : (negated term).Keeps R := by
  unfold negated
  split
  · exact hR.keeps_pure _
  · split
    · exact hR.keeps_pure _
    · exact hR.stays fun _ => rfl

theorem keeps_numberRule : numberRule.Keeps R := by
  refine hR.bind (hR.stays fun _ => rfl) fun token => ?_
  split
  · exact hR.stays fun _ => rfl
  · exact hR.bind (hR.stays fun _ => rfl) fun value => hR.bind hR.keeps_advance fun _ =>
      hR.keeps_pure _

/-! ### Parts of statements -/

section Parts

variable {production : Production → Parse Stmt} {statement : Parse Stmt}

theorem onlyExpr {step : Parse Stmt} (h : step.Keeps R) : (Parse.onlyExpr step).Keeps R := by
  refine hR.bind h fun stmt => ?_
  cases stmt with
  | expr value => exact hR.keeps_pure _
  | assign name value => exact hR.stays fun _ => rfl
  | declare name type isMutable value => exact hR.stays fun _ => rfl

theorem condition (h : (production .binary).Keeps R) : (Parse.condition production).Keeps R :=
  hR.bind (hR.onlyExpr h) fun e => hR.keeps_fold e

theorem many {stop : TokenKind → Bool} {step : Parse α} (h : step.Keeps R) :
    (Parse.many stop step).Keeps R := by
  have hwithin : ∀ fuel, (manyWithin stop step fuel).Keeps R := by
    intro fuel
    induction fuel with
    | zero => exact hR.stays fun _ => rfl
    | succ fuel ih =>
      refine hR.bind (hR.stays fun _ => rfl) fun k => ?_
      split
      · exact hR.keeps_pure _
      · exact hR.bind h fun a => hR.bind ih fun as => hR.keeps_pure _
  exact fun s => hwithin s.cursor.remaining.length s

theorem scope (h : statement.Keeps R) : (Parse.scope statement).Keeps R :=
  hR.bind (hR.keeps_expect _ _) fun _ => hR.bind (hR.many h) fun _ =>
    hR.bind (hR.keeps_expect _ _) fun _ => hR.keeps_pure _

theorem loopBody (h : statement.Keeps R) : (Parse.loopBody statement).Keeps R := by
  refine hR.bind (hR.scope h) fun body => hR.bind (hR.stays fun _ => rfl) fun k => ?_
  split
  · exact hR.bind hR.keeps_advance fun _ => hR.bind (hR.scope h) fun _ => hR.keeps_pure _
  · exact hR.keeps_pure _

theorem elseBranches (hbinary : (production .binary).Keeps R) (hstatement : statement.Keeps R)
    (fuel : Nat) (chain : Chain) :
    (Parse.elseBranches production statement fuel chain).Keeps R := by
  induction fuel generalizing chain with
  | zero => exact hR.stays fun _ => rfl
  | succ fuel ih =>
    refine hR.bind (hR.stays fun _ => rfl) fun k => ?_
    split
    · exact hR.keeps_pure _
    · refine hR.bind hR.keeps_advance fun _ => hR.bind (hR.stays fun _ => rfl) fun k => ?_
      split
      · exact hR.bind (hR.scope hstatement) fun _ => hR.keeps_pure _
      · exact hR.bind hR.keeps_advance fun _ => hR.bind (hR.condition hbinary) fun _ =>
          hR.bind (hR.scope hstatement) fun _ => ih _

/-- A rule that looks for a token of its own, and hands over if it does not find it. -/
theorem keyword {wanted : TokenKind} {p : Parse α} (hp : p.Keeps R) {f : Token → Parse α}
    (hf : ∀ token, (f token).Keeps R) :
    (kind >>= fun k => if k ≠ wanted then p else Parse.advance >>= f).Keeps R := by
  refine hR.bind (hR.stays fun _ => rfl) fun k => ?_
  split
  · exact hp
  · exact hR.bind hR.keeps_advance hf

end Parts

end State.Frame

/-! ### Rules -/

/-- Whether a rule may call for statements. -/
def Rule.nests : Rule → Bool
  | .conditional | .forLoop | .whileLoop | .loop | .parenthesis => true
  | .jump _ | .declaration | .assignment | .forward _ | .level _ _ _ | .unary | .leaf _ _ _
  | .number => false

namespace Rule

open Parse

variable {R : State → State → Prop} {production : Production → Parse Stmt} {statement : Parse Stmt}

theorem keeps_forRule (hR : State.Frame R) (hdeclaration : (production .declaration).Keeps R)
    (hbinary : (production .binary).Keeps R) (hassignment : (production .assignment).Keeps R)
    (hstatement : statement.Keeps R) (hnext : (production .whileLoop).Keeps R) :
    (forRule production statement).Keeps R := by
  refine hR.keyword hnext fun _ => hR.bind (hR.keeps_expect _ _) fun _ => ?_
  refine hR.bind hdeclaration fun init => hR.bind (hR.condition hbinary) fun guard => ?_
  refine hR.bind (hR.keeps_expect _ _) fun _ => hR.bind hassignment fun update => ?_
  exact hR.bind (hR.keeps_expect _ _) fun _ => hR.bind (hR.loopBody hstatement) fun _ =>
    hR.keeps_pure _

theorem keeps_assignmentRule (hR : State.Frame R) (hbinary : (production .binary).Keeps R) :
    (assignmentRule production).Keeps R := by
  refine hR.bind (hR.onlyExpr hbinary) fun target => hR.bind (hR.stays fun _ => rfl) fun k => ?_
  split
  · refine hR.bind hR.keeps_advance fun _ => hR.bind (hR.stays fun _ => rfl) fun start => ?_
    refine hR.bind (hR.onlyExpr hbinary) fun e => hR.bind (hR.keeps_fold e) fun value => ?_
    refine hR.bind (hR.stays fun _ => rfl) fun value => ?_
    exact hR.bind hR.keeps_terminator fun _ => hR.keeps_pure _
  · exact hR.bind hR.keeps_terminator fun _ => hR.keeps_pure _

theorem keeps_levelRule (hR : State.Frame R) {whole operand : Production} (operators : List String)
    (hwhole : (production whole).Keeps R) (hoperand : (production operand).Keeps R) :
    (levelRule production whole operand operators).Keeps R := by
  refine hR.bind (hR.onlyExpr hoperand) fun left => hR.bind (hR.stays fun _ => rfl) fun token => ?_
  split
  · refine hR.bind hR.keeps_advance fun _ => hR.bind (hR.onlyExpr hwhole) fun right => ?_
    exact hR.bind (hR.keeps_fold _) fun _ => hR.keeps_pure _
  · exact hR.keeps_pure _

theorem keeps_unaryRule (hR : State.Frame R) (hprimary : (production .primary).Keeps R) :
    (unaryRule production).Keeps R := by
  refine hR.bind (hR.stays fun _ => rfl) fun token => ?_
  split
  · refine hR.bind hR.keeps_advance fun _ => ?_
    split
    · exact hR.stays fun _ => rfl
    · refine hR.bind (hR.onlyExpr hprimary) fun term => ?_
      exact hR.bind (hR.keeps_fold _) fun _ => hR.keeps_pure _
  split
  · refine hR.bind hR.keeps_advance fun _ => hR.bind (hR.onlyExpr hprimary) fun e => ?_
    exact hR.bind (hR.keeps_fold _) fun term => hR.keeps_negated term
  · exact hprimary

/-- A rule keeps to a relation if the productions and statements that it calls for do.  Declarations
are the only steps that do more than move on. -/
theorem keeps_parse (hR : State.Frame R) (rule : Rule)
    (hdeclaration : rule = .declaration → (declarationRule production).Keeps R)
    (hnext : ∀ q, rule.next? = some q → (production q).Keeps R)
    (hinner : ∀ q ∈ rule.inner, (production q).Keeps R)
    (hstatement : rule.nests = true → statement.Keeps R) :
    (rule.parse production statement).Keeps R := by
  cases rule with
  | conditional =>
    have hbinary := hinner .binary (by decide)
    refine hR.keyword (hnext _ rfl) fun _ => hR.bind (hR.condition hbinary) fun guard => ?_
    refine hR.bind (hR.scope (hstatement rfl)) fun body => hR.bind (fun s => ?_) fun chain =>
      hR.keeps_pure _
    exact hR.elseBranches hbinary (hstatement rfl) s.cursor.remaining.length _ s
  | forLoop =>
    exact keeps_forRule hR (hinner _ (by decide)) (hinner _ (by decide)) (hinner _ (by decide))
      (hstatement rfl) (hnext _ rfl)
  | whileLoop =>
    refine hR.keyword (hnext _ rfl) fun _ => ?_
    refine hR.bind (hR.condition (hinner _ (by decide))) fun guard => ?_
    exact hR.bind (hR.loopBody (hstatement rfl)) fun _ => hR.keeps_pure _
  | loop =>
    exact hR.keyword (hnext _ rfl) fun _ => hR.bind (hR.loopBody (hstatement rfl)) fun _ =>
      hR.keeps_pure _
  | jump target =>
    exact hR.keyword (hnext _ rfl) fun _ => hR.bind (hR.keeps_expect _ _) fun _ => hR.keeps_pure _
  | declaration => exact hdeclaration rfl
  | assignment => exact keeps_assignmentRule hR (hnext _ rfl)
  | forward target => exact hnext _ rfl
  | level whole operand operators =>
    exact keeps_levelRule hR operators (hinner _ (List.mem_singleton_self _)) (hnext _ rfl)
  | unary => exact keeps_unaryRule hR (hnext _ rfl)
  | parenthesis =>
    refine hR.keyword (hnext _ rfl) fun _ => hR.bind (hR.onlyExpr ?_) fun _ => hR.keeps_pure _
    exact hR.bind (hstatement rfl) fun stmt => hR.bind (hR.keeps_expect _ _) fun _ =>
      hR.keeps_pure _
  | leaf wanted read otherwise =>
    refine hR.keyword (hnext _ rfl) fun token => hR.bind (hR.stays fun _ => rfl) fun q => ?_
    exact hR.bind (hR.stays fun _ => rfl) fun _ => hR.keeps_pure _
  | number => exact hR.keeps_numberRule

end Rule

/-! ### Grammars -/

namespace Grammar

open Parse

variable {R : State → State → Prop} {g : Grammar}

theorem keeps_start (hR : State.Frame R) {production : Production → Parse Stmt}
    (h : ∀ q, (production q).Keeps R) : (g.start production).Keeps R := by
  unfold start
  split
  · exact hR.stays fun _ => rfl
  · exact h _

/-- A relation is kept by the productions of a class if every rule of the class keeps it, given that
the productions of the class do. -/
theorem keeps_production_of_rules (hR : State.Frame R) {P : Production → Prop}
    (hrules : ∀ p rule, P p → g.rule? p = some rule → ∀ production : Production → Parse Stmt,
      (∀ q, P q → (production q).Keeps R) → (rule.parse production (g.start production)).Keeps R)
    {p : Production} (hp : P p) : (g.production p).Keeps R := by
  have hwithin : ∀ depth q, P q → (g.parseWithin depth q).Keeps R := by
    intro depth
    induction depth with
    | zero => exact fun q _ => hR.stays fun _ => rfl
    | succ depth ih =>
      intro q hq
      rw [parseWithin_succ, unfolded]
      split
      · exact hR.stays fun _ => rfl
      · rename_i rule hrule
        refine hR.bind (hR.stays fun _ => rfl) fun token => ?_
        exact hR.bind (hR.stays fun _ => rfl) fun _ => hrules q rule hq hrule _ ih
  intro s
  rw [run_production]
  exact hwithin s.depthBound p hp s

/-- A relation that allows for declarations is kept by every production, whatever rules the grammar
has. -/
theorem keeps_production (hR : State.Frame R)
    (hdeclaration : ∀ production : Production → Parse Stmt, (∀ q, (production q).Keeps R) →
      (declarationRule production).Keeps R) (p : Production) : (g.production p).Keeps R := by
  refine keeps_production_of_rules hR (P := fun _ => True) (fun _ rule _ _ production hall => ?_)
    trivial
  have hevery : ∀ q, (production q).Keeps R := fun q => hall q trivial
  exact rule.keeps_parse hR (fun _ => hdeclaration _ hevery) (fun q _ => hevery q)
    (fun q _ => hevery q) fun _ => keeps_start hR hevery

end Grammar

end Cascade
