import Mathlib.Tactic.Common
import Cascade.Parser.Run

/-!
# The depth of calls

The bound on the depth of calls is never felt by a dialect: every production can be read by its rule
with productions and statements that are read without a bound.  A rule either hands over to a
production further down the cascade or reads a token first, so the calls in front of a token are
fewer than the productions.

## Main definitions

* `State.size` : the number of tokens left.
* `Parse.AgreeOn` : two steps cannot be told apart while few tokens are left.
* `Rule.next?` : the production that a rule may call for before it has read a token.
* `Production.rank` : how many productions stand behind a production in the cascade.
* `Grammar.unfolded` : what a production stands for, given the steps of all productions.

## Main results

* `Rule.agreeOn_parse` : a rule gives the same with productions that agree on fewer tokens.
* `Dialect.agreeOn_parseWithin` : more depth than there are productions for every token changes
  nothing.
* `Dialect.production_eq_unfolded` : a production is read by its rule, without a bound on the depth.
-/

namespace Cascade

/-- The number of tokens left. -/
def State.size (s : State) : Nat :=
  s.cursor.remaining.length

theorem State.size_pos (s : State) : 0 < s.size :=
  Nat.succ_pos _

/-- Moving on from a token that is no end mark leaves one token less. -/
theorem State.size_advance {s : State} (h : s.cursor.here.kind ≠ .eof) :
    (⟨s.cursor.advance, s.symbols⟩ : State).size + 1 = s.size := by
  rw [State.size, Cursor.remaining_advance h]
  rfl

theorem State.size_advance_le (s : State) :
    (⟨s.cursor.advance, s.symbols⟩ : State).size ≤ s.size :=
  s.cursor.remaining_advance_suffix.length_le

namespace Parse

variable {α β : Type}

/-! ### Steps that agree -/

/-- Whether a step never puts tokens back. -/
def Shrinks (p : Parse α) : Prop :=
  ∀ s, (p.run s).state.size ≤ s.size

/-- Whether two steps give the same in a state, and no token is put back. -/
def AgreeAt (s : State) (p q : Parse α) : Prop :=
  p.run s = q.run s ∧ (p.run s).state.size ≤ s.size

/-- Whether two steps give the same in every state with at most `n` tokens left. -/
def AgreeOn (n : Nat) (p q : Parse α) : Prop :=
  ∀ s : State, s.size ≤ n → AgreeAt s p q

variable {n : Nat} {s : State}

theorem Shrinks.agreeAt {p : Parse α} (h : p.Shrinks) : AgreeAt s p p :=
  ⟨rfl, h s⟩

theorem Shrinks.agreeOn {p : Parse α} (h : p.Shrinks) : AgreeOn n p p :=
  fun _ _ => h.agreeAt

/-- There is always a token left. -/
theorem AgreeOn.zero {p q : Parse α} : AgreeOn 0 p q :=
  fun s hs => absurd s.size_pos (Nat.not_lt.2 hs)

/-- Sequences agree if their parts do. -/
theorem AgreeAt.bind {p q : Parse α} {f g : α → Parse β} (h : AgreeAt s p q)
    (hfg : ∀ a, (p.run s).result = .ok a → AgreeAt (p.run s).state (f a) (g a)) :
    AgreeAt s (p >>= f) (q >>= g) := by
  obtain ⟨hrun, hsize⟩ := h
  cases hresult : (p.run s).result with
  | error failure =>
    have hresult' : (q.run s).result = .error failure := by rw [← hrun, hresult]
    rw [AgreeAt, run_bind_of_error hresult, run_bind_of_error hresult', hrun]
    exact ⟨rfl, hrun ▸ hsize⟩
  | ok a =>
    have hresult' : (q.run s).result = .ok a := by rw [← hrun, hresult]
    obtain ⟨hrun', hsize'⟩ := hfg a hresult
    rw [AgreeAt, run_bind_of_ok hresult, run_bind_of_ok hresult', ← hrun, hrun']
    exact ⟨rfl, Nat.le_trans (hrun' ▸ hsize') hsize⟩

theorem AgreeOn.bind {p q : Parse α} {f g : α → Parse β} (h : AgreeOn n p q)
    (hfg : ∀ a, AgreeOn n (f a) (g a)) : AgreeOn n (p >>= f) (q >>= g) :=
  fun s hs => (h s hs).bind fun a _ => hfg a _ (Nat.le_trans (h s hs).2 hs)

/-! ### Primitive steps put no token back -/

theorem shrinks_pure (a : α) : (pure a : Parse α).Shrinks := fun _ => Nat.le_refl _

theorem Shrinks.bind {p : Parse α} {f : α → Parse β} (hp : p.Shrinks) (hf : ∀ a, (f a).Shrinks) :
    (p >>= f).Shrinks :=
  fun _ => (AgreeAt.bind hp.agreeAt fun a _ => (hf a).agreeAt).2

theorem shrinks_current : current.Shrinks := fun _ => Nat.le_refl _

theorem shrinks_kind : kind.Shrinks := fun _ => Nat.le_refl _

theorem shrinks_position : position.Shrinks := fun _ => Nat.le_refl _

theorem shrinks_fail (fault : Fault) : (fail fault : Parse α).Shrinks := fun _ => Nat.le_refl _

theorem shrinks_exhausted : (exhausted : Parse α).Shrinks := fun _ => Nat.le_refl _

theorem shrinks_tell (event : Event) : (tell event).Shrinks := fun _ => Nat.le_refl _

theorem shrinks_settle (q : Position) (result : Except Fault α) (events : List Event) :
    (settle q result events).Shrinks := fun _ => Nat.le_refl _

theorem shrinks_fold (e : Expr) : (fold e).Shrinks := fun _ => Nat.le_refl _

theorem shrinks_checkValue (q : Position) (type : ValueType) (value : Expr) :
    (checkValue q type value).Shrinks := fun _ => Nat.le_refl _

theorem shrinks_checkAssignment (q : Position) (name : String) (value : Expr) :
    (checkAssignment q name value).Shrinks := fun _ => Nat.le_refl _

theorem shrinks_declare (name : String) (type : ValueType) : (declare name type).Shrinks :=
  fun _ => Nat.le_refl _

theorem shrinks_advance : advance.Shrinks := State.size_advance_le

theorem shrinks_ite {c : Prop} [Decidable c] {p q : Parse α} (hp : p.Shrinks) (hq : q.Shrinks) :
    (if c then p else q).Shrinks := by
  split
  · exact hp
  · exact hq

theorem shrinks_expect (expected : TokenKind) (description : String) :
    (expect expected description).Shrinks :=
  shrinks_current.bind fun _ => shrinks_ite shrinks_advance (shrinks_fail _)

theorem shrinks_terminator : terminator.Shrinks :=
  shrinks_current.bind fun _ => shrinks_ite (shrinks_advance.bind fun _ => shrinks_pure _)
    (shrinks_ite (shrinks_fail _) (shrinks_pure _))

theorem shrinks_mutability : mutability.Shrinks :=
  shrinks_kind.bind fun _ => shrinks_ite (shrinks_advance.bind fun _ => shrinks_pure _)
    (shrinks_pure _)

theorem shrinks_declaredType : declaredType.Shrinks :=
  (shrinks_expect _ _).bind fun _ => shrinks_settle _ _ _

theorem shrinks_negated (term : Expr) : (negated term).Shrinks := by
  unfold negated
  split
  · exact shrinks_pure _
  · exact shrinks_ite (shrinks_pure _) (shrinks_fail _)

theorem shrinks_numberRule : numberRule.Shrinks :=
  shrinks_current.bind fun _ => shrinks_ite (shrinks_fail _)
    ((shrinks_settle _ _ _).bind fun _ => shrinks_advance.bind fun _ => shrinks_pure _)

/-! ### Parts of statements -/

section Parts

variable {production production' : Production → Parse Stmt} {statement statement' : Parse Stmt}

theorem AgreeOn.onlyExpr {step step' : Parse Stmt} (h : AgreeOn n step step') :
    AgreeOn n (onlyExpr step) (onlyExpr step') := by
  refine h.bind fun stmt => ?_
  cases stmt with
  | expr value => exact (shrinks_pure _).agreeOn
  | assign name value => exact (shrinks_fail _).agreeOn
  | declare name type isMutable value => exact (shrinks_fail _).agreeOn

theorem AgreeOn.condition (h : AgreeOn n (production .binary) (production' .binary)) :
    AgreeOn n (condition production) (condition production') :=
  h.onlyExpr.bind fun _ => (shrinks_fold _).agreeOn

theorem AgreeOn.many {stop : TokenKind → Bool} {step step' : Parse α} (h : AgreeOn n step step') :
    AgreeOn n (many stop step) (many stop step') := by
  have hwithin : ∀ fuel, AgreeOn n (manyWithin stop step fuel) (manyWithin stop step' fuel) := by
    intro fuel
    induction fuel with
    | zero => exact shrinks_exhausted.agreeOn
    | succ fuel ih =>
      refine shrinks_kind.agreeOn.bind fun k => ?_
      split
      · exact (shrinks_pure _).agreeOn
      · exact h.bind fun a => ih.bind fun as => (shrinks_pure _).agreeOn
  exact fun s hs => hwithin s.cursor.remaining.length s hs

theorem AgreeOn.scope (h : AgreeOn n statement statement') :
    AgreeOn n (scope statement) (scope statement') :=
  (shrinks_expect _ _).agreeOn.bind fun _ => h.many.bind fun _ =>
    (shrinks_expect _ _).agreeOn.bind fun _ => (shrinks_pure _).agreeOn

theorem AgreeOn.loopBody (h : AgreeOn n statement statement') :
    AgreeOn n (loopBody statement) (loopBody statement') := by
  refine h.scope.bind fun body => shrinks_kind.agreeOn.bind fun k => ?_
  split
  · exact shrinks_advance.agreeOn.bind fun _ => h.scope.bind fun _ => (shrinks_pure _).agreeOn
  · exact (shrinks_pure _).agreeOn

theorem AgreeOn.elseBranches (hproduction : AgreeOn n (production .binary) (production' .binary))
    (hstatement : AgreeOn n statement statement') (fuel : Nat) (chain : Chain) :
    AgreeOn n (elseBranches production statement fuel chain)
      (elseBranches production' statement' fuel chain) := by
  induction fuel generalizing chain with
  | zero => exact shrinks_exhausted.agreeOn
  | succ fuel ih =>
    refine shrinks_kind.agreeOn.bind fun k => ?_
    split
    · exact (shrinks_pure _).agreeOn
    · refine shrinks_advance.agreeOn.bind fun _ => shrinks_kind.agreeOn.bind fun k => ?_
      split
      · exact hstatement.scope.bind fun _ => (shrinks_pure _).agreeOn
      · exact shrinks_advance.agreeOn.bind fun _ => hproduction.condition.bind fun _ =>
          hstatement.scope.bind fun _ => ih _

/-! ### Rules -/

/-- Behind a token that is no end mark there are fewer tokens left. -/
theorem AgreeOn.agreeAt_advance {f f' : Token → Parse α}
    (h : ∀ token, AgreeOn n (f token) (f' token)) (hs : s.size ≤ n + 1)
    (heof : s.cursor.here.kind ≠ .eof) :
    AgreeAt s (advance >>= f) (advance >>= f') := by
  refine AgreeAt.bind shrinks_advance.agreeAt fun token _ => h token _ ?_
  have hsize := State.size_advance heof
  change (⟨s.cursor.advance, s.symbols⟩ : State).size ≤ n
  omega

/-- A rule that looks for a token of its own, and hands over if it does not find it, calls for
something at the same token only when it hands over. -/
theorem AgreeOn.keyword {wanted : TokenKind} (hwanted : wanted ≠ .eof) {p p' : Parse α}
    (hp : AgreeOn (n + 1) p p') {f f' : Token → Parse α}
    (hf : ∀ token, AgreeOn n (f token) (f' token)) :
    AgreeOn (n + 1) (kind >>= fun k => if k ≠ wanted then p else advance >>= f)
      (kind >>= fun k => if k ≠ wanted then p' else advance >>= f') := by
  intro s hs
  refine AgreeAt.bind shrinks_kind.agreeAt fun k hk => ?_
  cases hk
  by_cases h : s.cursor.here.kind = wanted
  · simp only [h, ne_eq, not_true_eq_false, if_false]
    exact AgreeOn.agreeAt_advance hf hs (h ▸ hwanted)
  · simp only [ne_eq, h, not_false_eq_true, if_true]
    exact hp s hs

end Parts

end Parse

/-! ### The production in front of a token -/

/-- The production that a rule may call for before it has read a token. -/
def Rule.next? : Rule → Option Production
  | .conditional => some .forLoop
  | .forLoop => some .whileLoop
  | .whileLoop => some .loop
  | .loop => some .breakJump
  | .jump target => some target.otherwise
  | .declaration => some .assignment
  | .assignment => some .binary
  | .forward target => some target
  | .level _ operand _ => some operand
  | .unary => some .primary
  | .parenthesis => some .str
  | .leaf _ _ otherwise => some otherwise
  | .number => none

/-- The number of productions behind a production in the cascade. -/
def Production.rank (p : Production) : Nat :=
  Production.all.reverse.idxOf p

theorem Production.rank_lt (p : Production) : p.rank < Production.all.length := by
  cases p <;> decide

/-- A dialect hands over to productions further down the cascade only. -/
theorem Dialect.rank_lt_of_next {d : Dialect} {p q : Production} {rule : Rule}
    (hrule : d.grammar.rule? p = some rule) (hnext : rule.next? = some q) : q.rank < p.rank := by
  cases d <;> cases p <;> cases hrule <;> cases hnext <;> decide

namespace Rule

open Parse

variable {n : Nat} {production production' : Production → Parse Stmt}
variable {statement statement' : Parse Stmt}

theorem agreeOn_forRule (hproduction : ∀ q, AgreeOn n (production q) (production' q))
    (hstatement : AgreeOn n statement statement')
    (hnext : AgreeOn (n + 1) (production .whileLoop) (production' .whileLoop)) :
    AgreeOn (n + 1) (forRule production statement) (forRule production' statement') := by
  refine AgreeOn.keyword (by decide) hnext fun _ => ?_
  refine (shrinks_expect _ _).agreeOn.bind fun _ => (hproduction _).bind fun init => ?_
  refine (hproduction _).condition.bind fun guard => (shrinks_expect _ _).agreeOn.bind fun _ => ?_
  refine (hproduction _).bind fun update => (shrinks_expect _ _).agreeOn.bind fun _ => ?_
  exact hstatement.loopBody.bind fun _ => (shrinks_pure _).agreeOn

theorem agreeOn_declarationRule (hproduction : ∀ q, AgreeOn n (production q) (production' q))
    (hnext : AgreeOn (n + 1) (production .assignment) (production' .assignment)) :
    AgreeOn (n + 1) (declarationRule production) (declarationRule production') := by
  refine AgreeOn.keyword (by decide) hnext fun _ => ?_
  refine shrinks_mutability.agreeOn.bind fun isMutable => ?_
  refine (shrinks_expect _ _).agreeOn.bind fun name => (shrinks_expect _ _).agreeOn.bind fun _ => ?_
  refine shrinks_declaredType.agreeOn.bind fun type => (shrinks_expect _ _).agreeOn.bind fun _ => ?_
  refine shrinks_position.agreeOn.bind fun start => (hproduction _).onlyExpr.bind fun value => ?_
  refine (shrinks_fold _).agreeOn.bind fun value => ?_
  refine (shrinks_checkValue _ _ _).agreeOn.bind fun value => ?_
  refine (shrinks_expect _ _).agreeOn.bind fun _ => (shrinks_declare _ _).agreeOn.bind fun _ => ?_
  exact (shrinks_pure _).agreeOn

theorem agreeOn_assignmentRule (hproduction : ∀ q, AgreeOn n (production q) (production' q))
    (hnext : AgreeOn (n + 1) (production .binary) (production' .binary)) :
    AgreeOn (n + 1) (assignmentRule production) (assignmentRule production') := by
  intro s hs
  have htarget := hnext.onlyExpr s hs
  refine htarget.bind fun target hresult => ?_
  refine AgreeAt.bind shrinks_kind.agreeAt fun k hk => ?_
  cases hk
  split
  · rename_i name hkind
    refine AgreeOn.agreeAt_advance (fun _ => ?_) (Nat.le_trans htarget.2 hs) ?_
    · refine shrinks_position.agreeOn.bind fun start => ?_
      refine (hproduction _).onlyExpr.bind fun value => ?_
      refine (shrinks_fold _).agreeOn.bind fun value => ?_
      refine (shrinks_checkAssignment _ _ _).agreeOn.bind fun value => ?_
      exact shrinks_terminator.agreeOn.bind fun _ => (shrinks_pure _).agreeOn
    · exact ne_of_eq_of_ne hkind (by decide)
  · exact (shrinks_terminator.bind fun _ => shrinks_pure _).agreeAt

theorem agreeOn_levelRule {whole operand : Production} {operators : List String}
    (hproduction : ∀ q, AgreeOn n (production q) (production' q))
    (hnext : AgreeOn (n + 1) (production operand) (production' operand)) :
    AgreeOn (n + 1) (levelRule production whole operand operators)
      (levelRule production' whole operand operators) := by
  intro s hs
  have hleft := hnext.onlyExpr s hs
  refine hleft.bind fun left _ => AgreeAt.bind shrinks_current.agreeAt fun token htoken => ?_
  cases htoken
  split
  · rename_i hop
    refine AgreeOn.agreeAt_advance (fun _ => ?_) (Nat.le_trans hleft.2 hs) ?_
    · refine (hproduction _).onlyExpr.bind fun right => ?_
      exact (shrinks_fold _).agreeOn.bind fun _ => (shrinks_pure _).agreeOn
    · simp only [Token.isOperator, Bool.and_eq_true, decide_eq_true_eq] at hop
      exact ne_of_eq_of_ne hop.1 (by decide)
  · exact (shrinks_pure _).agreeAt

theorem agreeOn_unaryRule (hproduction : ∀ q, AgreeOn n (production q) (production' q))
    (hnext : AgreeOn (n + 1) (production .primary) (production' .primary)) :
    AgreeOn (n + 1) (unaryRule production) (unaryRule production') := by
  intro s hs
  refine AgreeAt.bind shrinks_current.agreeAt fun token htoken => ?_
  cases htoken
  split
  · rename_i hkind
    refine AgreeOn.agreeAt_advance (fun _ => ?_) hs (ne_of_eq_of_ne hkind (by decide))
    split
    · exact (shrinks_fail _).agreeOn
    · refine (hproduction _).onlyExpr.bind fun term => ?_
      exact (shrinks_fold _).agreeOn.bind fun _ => (shrinks_pure _).agreeOn
  split
  · rename_i hop
    simp only [Token.isOperator, Bool.and_eq_true, decide_eq_true_eq] at hop
    refine AgreeOn.agreeAt_advance (fun _ => ?_) hs (ne_of_eq_of_ne hop.1 (by decide))
    refine (hproduction _).onlyExpr.bind fun term => ?_
    exact (shrinks_fold _).agreeOn.bind fun _ => (shrinks_negated _).agreeOn
  · exact hnext s hs

/-- A rule gives the same with productions and statements that agree when one token less is left,
provided the production that it may call for at once agrees as well. -/
theorem agreeOn_parse (rule : Rule) (hproduction : ∀ q, AgreeOn n (production q) (production' q))
    (hstatement : AgreeOn n statement statement')
    (hnext : ∀ q, rule.next? = some q → AgreeOn (n + 1) (production q) (production' q)) :
    AgreeOn (n + 1) (rule.parse production statement) (rule.parse production' statement') := by
  cases rule with
  | conditional =>
    refine AgreeOn.keyword (by decide) (hnext _ rfl) fun _ => ?_
    refine (hproduction _).condition.bind fun guard => hstatement.scope.bind fun body => ?_
    refine AgreeOn.bind (fun s hs => ?_) fun chain => (shrinks_pure _).agreeOn
    exact (hproduction _).elseBranches hstatement _ _ s hs
  | forLoop => exact agreeOn_forRule hproduction hstatement (hnext _ rfl)
  | whileLoop =>
    refine AgreeOn.keyword (by decide) (hnext _ rfl) fun _ => ?_
    refine (hproduction _).condition.bind fun guard => ?_
    exact hstatement.loopBody.bind fun _ => (shrinks_pure _).agreeOn
  | loop =>
    refine AgreeOn.keyword (by decide) (hnext _ rfl) fun _ => ?_
    exact hstatement.loopBody.bind fun _ => (shrinks_pure _).agreeOn
  | jump target =>
    refine AgreeOn.keyword (by cases target <;> decide) (hnext _ rfl) fun _ => ?_
    exact (shrinks_expect _ _).agreeOn.bind fun _ => (shrinks_pure _).agreeOn
  | declaration => exact agreeOn_declarationRule hproduction (hnext _ rfl)
  | assignment => exact agreeOn_assignmentRule hproduction (hnext _ rfl)
  | forward target => exact hnext _ rfl
  | level whole operand operators => exact agreeOn_levelRule hproduction (hnext _ rfl)
  | unary => exact agreeOn_unaryRule hproduction (hnext _ rfl)
  | parenthesis =>
    refine AgreeOn.keyword (by decide) (hnext _ rfl) fun _ => ?_
    refine AgreeOn.bind (AgreeOn.onlyExpr ?_) fun value => (shrinks_pure _).agreeOn
    exact hstatement.bind fun stmt => (shrinks_expect _ _).agreeOn.bind fun _ =>
      (shrinks_pure _).agreeOn
  | leaf wanted read otherwise =>
    refine shrinks_kind.agreeOn.bind fun k => ?_
    split
    · exact hnext _ rfl
    · exact (shrinks_advance.bind fun _ => shrinks_position.bind fun _ =>
        (shrinks_settle _ _ _).bind fun _ => shrinks_pure _).agreeOn
  | number => exact shrinks_numberRule.agreeOn

end Rule

namespace Grammar

open Parse

/-- What a production stands for, given the steps of all productions. -/
def unfolded (g : Grammar) (production : Production → Parse Stmt) (p : Production) : Parse Stmt :=
  match g.rule? p with
  | none => fail (.unregisteredProduction p.name)
  | some rule => do
    tell (.entered p (← current))
    rule.parse production (g.start production)

theorem parseWithin_succ (g : Grammar) (depth : Nat) (p : Production) :
    g.parseWithin (depth + 1) p = g.unfolded (g.parseWithin depth) p :=
  rfl

end Grammar

namespace Dialect

open Parse

variable {d : Dialect} {n : Nat} {production production' : Production → Parse Stmt}

theorem agreeOn_start (h : ∀ q, AgreeOn n (production q) (production' q)) :
    AgreeOn n (d.grammar.start production) (d.grammar.start production') := by
  unfold Grammar.start
  split
  · exact (shrinks_fail _).agreeOn
  · exact h _

theorem agreeOn_unfolded {p : Production} (h : ∀ q, AgreeOn n (production q) (production' q))
    (hnext : ∀ q, q.rank < p.rank → AgreeOn (n + 1) (production q) (production' q)) :
    AgreeOn (n + 1) (d.grammar.unfolded production p) (d.grammar.unfolded production' p) := by
  unfold Grammar.unfolded
  split
  · exact (shrinks_fail _).agreeOn
  · rename_i rule hrule
    refine shrinks_current.agreeOn.bind fun token => (shrinks_tell _).agreeOn.bind fun _ => ?_
    exact rule.agreeOn_parse h (agreeOn_start h) fun q hq => hnext q (rank_lt_of_next hrule hq)

/-- Calls never get deeper than there are productions for every token, so more depth than that
changes nothing. -/
theorem agreeOn_parseWithin (d : Dialect) (n : Nat) (p : Production) {depth depth' : Nat}
    (h : Production.all.length * n + p.rank < depth)
    (h' : Production.all.length * n + p.rank < depth') :
    AgreeOn (n + 1) (d.grammar.parseWithin depth p) (d.grammar.parseWithin depth' p) := by
  obtain ⟨depth, rfl⟩ := Nat.exists_eq_add_one_of_ne_zero (Nat.ne_zero_of_lt h)
  obtain ⟨depth', rfl⟩ := Nat.exists_eq_add_one_of_ne_zero (Nat.ne_zero_of_lt h')
  rw [Grammar.parseWithin_succ, Grammar.parseWithin_succ]
  -- A token is read, or the rank goes down.
  refine agreeOn_unfolded (fun q => ?_) fun q hq => d.agreeOn_parseWithin n q (by omega) (by omega)
  cases n with
  | zero => exact AgreeOn.zero
  | succ n =>
    have hrank := q.rank_lt
    rw [Nat.mul_succ] at h h'
    exact d.agreeOn_parseWithin n q (by omega) (by omega)
termination_by (n, p.rank)

/-- A production without a bound agrees with one that has enough depth. -/
theorem agreeOn_production (d : Dialect) (n : Nat) (p : Production) {depth : Nat}
    (h : Production.all.length * n + p.rank < depth) :
    AgreeOn (n + 1) (d.grammar.parseWithin depth p) (d.grammar.production p) := by
  intro s hs
  obtain ⟨m, hm⟩ := Nat.exists_eq_add_one_of_ne_zero (Nat.ne_zero_of_lt s.size_pos)
  have hmul : Production.all.length * m ≤ Production.all.length * n :=
    Nat.mul_le_mul_left _ (by omega)
  have hbound : Production.all.length * m + p.rank < s.depthBound := by
    have hrank := p.rank_lt
    change _ < Production.all.length * s.size
    rw [hm, Nat.mul_succ]
    omega
  rw [AgreeAt, Grammar.run_production]
  exact d.agreeOn_parseWithin m p (by omega) hbound s (by omega)

/-- A production of a dialect is read by its rule, with productions and statements that know no
bound on the depth of calls. -/
theorem production_eq_unfolded (d : Dialect) (p : Production) :
    d.grammar.production p = d.grammar.unfolded d.grammar.production p := by
  ext s
  obtain ⟨n, hn⟩ := Nat.exists_eq_add_one_of_ne_zero (Nat.ne_zero_of_lt s.size_pos)
  obtain ⟨depth, hdepth⟩ : ∃ depth, s.depthBound = depth + 1 :=
    Nat.exists_eq_add_one_of_ne_zero (Nat.ne_zero_of_lt (Nat.mul_pos (by decide) s.size_pos))
  have hbound : Production.all.length * n + Production.all.length = depth + 1 := by
    rw [← hdepth, ← Nat.mul_succ, Nat.succ_eq_add_one, ← hn]
    rfl
  rw [Grammar.run_production, hdepth, Grammar.parseWithin_succ]
  refine (agreeOn_unfolded (fun q => ?_) (fun q hq => ?_) s (Nat.le_of_eq hn)).1
  · cases n with
    | zero => exact AgreeOn.zero
    | succ n =>
      have hrank := q.rank_lt
      rw [Nat.mul_succ] at hbound
      exact d.agreeOn_production n q (by omega)
  · have hrank := p.rank_lt
    exact d.agreeOn_production n q (by omega)

end Dialect

end Cascade
