import Mathlib.Tactic.Common
import Cascade.Proofs.Progress
import Cascade.Proofs.Realization

/-!
# The full dialect extends the basic one

The two dialects start from different productions and look for different primaries, yet the full
dialect reads whatever the basic one reads, and reads it in the same way.  Both go on in step until
the basic dialect stands in front of a token that begins something in the full dialect only; there
the basic dialect gives up.

## Main definitions

* `Dialect.fullOnly` : the tokens that begin something in the full dialect only.
* `Parse.SameAt` : two steps give the same in a state, events apart.
* `Parse.StopsAt`, `Parse.BlockedAt` : a step gives up in front of such a token.
* `Parse.Extends` : a step gives what another one gives, unless that one gives up.

## Main results

* `Parse.ExtendsAt.bind` : sequences are extended part by part.
* `Dialect.blockedAt_parseWithin` : the basic dialect gives up in front of such a token.
* `Dialect.extends_parseWithin` : every production of the basic dialect is extended by that of the
  full one.
* `Dialect.full_extends_basic` : the full dialect gives the same outcome, unless the basic one gives
  up.
-/

namespace Cascade

/-- The tokens that begin something in the full dialect and nothing in the basic one. -/
def Dialect.fullOnly : List TokenKind :=
  [.openParen, .str, .char, .kwIf, .kwFor, .kwWhile, .kwLoop, .kwBreak, .kwContinue]

namespace Parse

variable {α β : Type} {s : State}

/-! ### Two steps that go together -/

/-- Whether two steps give the same in a state.  Their events may differ. -/
def SameAt (s : State) (p q : Parse α) : Prop :=
  (q.run s).result = (p.run s).result ∧ (q.run s).state = (p.run s).state

/-- Whether a step gives up in front of a token that begins something in the full dialect only. -/
def StopsAt (s : State) (p : Parse α) : Prop :=
  ∃ token, token = (p.run s).state.cursor.here ∧ token.kind ∈ Dialect.fullOnly ∧
    (p.run s).result = .error (.fault ⟨.unexpectedToken token.value, token.span.start⟩)

/-- Whether a step gives up, or runs out of calls before that. -/
def BlockedAt (s : State) (p : Parse α) : Prop :=
  StopsAt s p ∨ (p.run s).result = .error .exhausted

/-- Whether a step gives in a state what another one gives, unless that one gives up. -/
def ExtendsAt (s : State) (p q : Parse α) : Prop :=
  SameAt s p q ∨ BlockedAt s p

/-- Whether a step gives in every state what another one gives, unless that one gives up. -/
def Extends (p q : Parse α) : Prop :=
  ∀ s, ExtendsAt s p q

theorem SameAt.refl (s : State) (p : Parse α) : SameAt s p p :=
  ⟨rfl, rfl⟩

theorem SameAt.trans {p q r : Parse α} (h : SameAt s p q) (h' : SameAt s q r) : SameAt s p r :=
  ⟨h'.1.trans h.1, h'.2.trans h.2⟩

theorem Extends.refl (p : Parse α) : Extends p p :=
  fun s => .inl (.refl s p)

theorem ExtendsAt.trans_sameAt {p q r : Parse α} (h : ExtendsAt s p q) (h' : SameAt s q r) :
    ExtendsAt s p r :=
  h.imp_left fun hsame => hsame.trans h'

/-- A step without an effect on the state may stand in front. -/
theorem SameAt.after {p : Parse α} {f : α → Parse β} {q : Parse β} {a : α} (h : p.Gives s a s)
    (hf : SameAt s q (f a)) : SameAt s q (p >>= f) := by
  obtain ⟨hresult, hstate⟩ := h
  rw [SameAt, run_bind_of_ok hresult, hstate]
  exact hf

/-- A step that fails ends a sequence. -/
theorem BlockedAt.bind {p : Parse α} (h : BlockedAt s p) (f : α → Parse β) :
    BlockedAt s (p >>= f) := by
  rcases h with ⟨token, htoken, hkind, hresult⟩ | hresult
  · refine .inl ⟨token, ?_, hkind, ?_⟩
    · rw [run_bind_of_error hresult]
      exact htoken
    · rw [run_bind_of_error hresult]
  · exact .inr (by rw [run_bind_of_error hresult])

/-- A sequence gives up if its second part does. -/
theorem BlockedAt.after {p : Parse α} {f : α → Parse β} {a : α} {t : State} (h : p.Gives s a t)
    (hf : BlockedAt t (f a)) : BlockedAt s (p >>= f) := by
  obtain ⟨hresult, rfl⟩ := h
  rcases hf with ⟨token, htoken, hkind, hfault⟩ | hexhausted
  · refine .inl ⟨token, ?_, hkind, ?_⟩
    · rw [run_bind_of_ok hresult]
      exact htoken
    · rw [run_bind_of_ok hresult]
      exact hfault
  · exact .inr (by rw [run_bind_of_ok hresult]; exact hexhausted)

/-- Sequences are extended part by part. -/
theorem ExtendsAt.bind {p q : Parse α} {f g : α → Parse β} (h : ExtendsAt s p q)
    (hfg : ∀ a t, p.Gives s a t → ExtendsAt t (f a) (g a)) : ExtendsAt s (p >>= f) (q >>= g) := by
  rcases h with ⟨hresult, hstate⟩ | hblocked
  · cases hp : (p.run s).result with
    | error failure =>
      rw [hp] at hresult
      refine .inl ?_
      rw [SameAt, run_bind_of_error hp, run_bind_of_error hresult]
      exact ⟨rfl, hstate⟩
    | ok a =>
      rw [hp] at hresult
      rcases hfg a _ ⟨hp, rfl⟩ with hsame | hblocked
      · refine .inl ?_
        rw [SameAt, run_bind_of_ok hp, run_bind_of_ok hresult, hstate]
        exact hsame
      · exact .inr (.after ⟨hp, rfl⟩ hblocked)
  · exact .inr (hblocked.bind f)

theorem Extends.bind {p q : Parse α} {f g : α → Parse β} (h : Extends p q)
    (hfg : ∀ a, Extends (f a) (g a)) : Extends (p >>= f) (q >>= g) :=
  fun s => (h s).bind fun a t _ => hfg a t

/-- The same step stands in front of steps of which one extends the other. -/
theorem Extends.step (p : Parse α) {f g : α → Parse β} (hfg : ∀ a, Extends (f a) (g a)) :
    Extends (p >>= f) (p >>= g) :=
  (Extends.refl p).bind hfg

/-- Events make no difference. -/
theorem extends_tell (event event' : Event) : Extends (tell event) (tell event') :=
  fun _ => .inl ⟨rfl, rfl⟩

theorem Extends.onlyExpr {step step' : Parse Stmt} (h : Extends step step') :
    Extends (onlyExpr step) (onlyExpr step') :=
  h.bind fun _ => .refl _

theorem Extends.many {stop : TokenKind → Bool} {step step' : Parse α} (h : Extends step step') :
    Extends (many stop step) (many stop step') := by
  have hwithin : ∀ fuel, Extends (manyWithin stop step fuel) (manyWithin stop step' fuel) := by
    intro fuel
    induction fuel with
    | zero => exact .refl _
    | succ fuel ih =>
      refine .step kind fun k => ?_
      split
      · exact .refl _
      · exact h.bind fun a => ih.bind fun as => .refl _
  exact fun s => hwithin s.cursor.remaining.length s

end Parse

namespace Rule

open Parse Dialect

variable {p : Production} {rule : Rule} {s : State}
variable {production production' : Production → Parse Stmt} {statement statement' : Parse Stmt}

/-! ### Rules of the basic dialect -/

/-- No rule of the basic dialect looks for a token that begins something in the full dialect
only. -/
theorem not_mem_fullOnly_of_leaf {wanted : TokenKind} {read : Token → Except Fault Expr}
    {otherwise : Production} (hrule : basic.grammar.rule? p = some (.leaf wanted read otherwise)) :
    wanted ∉ fullOnly := by
  cases p <;> cases hrule <;> decide

/-- A rule of the basic dialect hands over in front of such a token, until nothing is left to
try. -/
theorem blockedAt_parse (hrule : basic.grammar.rule? p = some rule)
    (hkind : s.cursor.here.kind ∈ fullOnly)
    (hnext : ∀ q, rule.next? = some q → BlockedAt s (production q)) :
    BlockedAt s (rule.parse production statement) := by
  have hne : ∀ {wanted : TokenKind}, wanted ∉ fullOnly → s.cursor.here.kind ≠ wanted := by
    rintro wanted hwanted rfl
    exact hwanted hkind
  cases rule with
  | declaration =>
    refine .after (gives_kind.2 ⟨rfl, rfl⟩) ?_
    rw [if_pos (hne (by decide))]
    exact hnext _ rfl
  | assignment => exact BlockedAt.bind ((hnext _ rfl).bind _) _
  | forward target => exact hnext _ rfl
  | level whole operand operators => exact BlockedAt.bind ((hnext _ rfl).bind _) _
  | unary =>
    refine .after (gives_current.2 ⟨rfl, rfl⟩) ?_
    have hbinary : s.cursor.here.kind ≠ .binaryOperator := hne (by decide)
    have hoperator : s.cursor.here.isOperator ["-"] = false := by simp [Token.isOperator, hbinary]
    rw [if_neg (hne (by decide)), if_neg (by simp [hoperator])]
    exact hnext _ rfl
  | leaf wanted read otherwise =>
    refine .after (gives_kind.2 ⟨rfl, rfl⟩) ?_
    rw [if_pos (hne (not_mem_fullOnly_of_leaf hrule))]
    exact hnext _ rfl
  | number =>
    refine .after (gives_current.2 ⟨rfl, rfl⟩) ?_
    rw [if_pos (hne (by decide))]
    exact .inl ⟨s.cursor.here, rfl, hkind, rfl⟩
  | conditional | forLoop | whileLoop | loop | jump target | parenthesis => cases p <;> cases hrule

theorem extends_declarationRule (hbinary : Extends (production .binary) (production' .binary))
    (hassignment : Extends (production .assignment) (production' .assignment)) :
    Extends (declarationRule production) (declarationRule production') := by
  refine .step kind fun k => ?_
  split
  · exact hassignment
  · refine .step advance fun _ => .step mutability fun isMutable => ?_
    refine .step (expect _ _) fun name => .step (expect _ _) fun _ => ?_
    refine .step declaredType fun type => .step (expect _ _) fun _ => ?_
    exact .step position fun start => hbinary.onlyExpr.bind fun value => .refl _

theorem extends_assignmentRule (hbinary : Extends (production .binary) (production' .binary)) :
    Extends (assignmentRule production) (assignmentRule production') := by
  refine hbinary.onlyExpr.bind fun target => .step kind fun k => ?_
  split
  · refine .step advance fun _ => .step position fun start => ?_
    exact hbinary.onlyExpr.bind fun value => .refl _
  · exact .refl _

theorem extends_levelRule {whole operand : Production} {operators : List String}
    (hwhole : Extends (production whole) (production' whole))
    (hoperand : Extends (production operand) (production' operand)) :
    Extends (levelRule production whole operand operators)
      (levelRule production' whole operand operators) := by
  refine hoperand.onlyExpr.bind fun left => .step current fun token => ?_
  split
  · exact .step advance fun _ => hwhole.onlyExpr.bind fun right => .refl _
  · exact .refl _

theorem extends_unaryRule (hprimary : Extends (production .primary) (production' .primary)) :
    Extends (unaryRule production) (unaryRule production') := by
  refine .step current fun token => ?_
  split
  · refine .step advance fun _ => ?_
    split
    · exact .refl _
    · exact hprimary.onlyExpr.bind fun term => .refl _
  split
  · exact .step advance fun _ => hprimary.onlyExpr.bind fun term => .refl _
  · exact hprimary

/-- A rule of the basic dialect is extended if the productions that it calls for are. -/
theorem extends_parse (hrule : basic.grammar.rule? p = some rule)
    (hinner : ∀ q ∈ rule.inner, Extends (production q) (production' q))
    (hnext : ∀ q, rule.next? = some q → Extends (production q) (production' q)) :
    Extends (rule.parse production statement) (rule.parse production' statement') := by
  cases rule with
  | declaration => exact extends_declarationRule (hinner .binary (by decide)) (hnext _ rfl)
  | assignment => exact extends_assignmentRule (hnext _ rfl)
  | forward target => exact hnext _ rfl
  | level whole operand operators =>
    exact extends_levelRule (hinner whole (List.mem_singleton_self whole)) (hnext _ rfl)
  | unary => exact extends_unaryRule (hnext _ rfl)
  | leaf wanted read otherwise =>
    refine .step kind fun k => ?_
    split
    · exact hnext _ rfl
    · exact .refl _
  | number => exact .refl _
  | conditional | forLoop | whileLoop | loop | jump target | parenthesis => cases p <;> cases hrule

/-- A rule that does not look for the current token leaves all to the production behind it. -/
theorem sameAt_next {q : Production} (hnext : rule.leavesTo? s.cursor.here.kind = some q) :
    SameAt s (production q) (rule.parse production statement) := by
  unfold Rule.leavesTo? at hnext
  cases rule <;> simp only [Rule.keyword?, Option.ite_none_left_eq_some, reduceCtorEq] at hnext
  all_goals
    obtain ⟨hkind, hq⟩ := hnext
    cases hq
    refine .after (gives_kind.2 ⟨rfl, rfl⟩) ?_
    rw [if_pos hkind]
    exact .refl s _

end Rule

namespace Dialect

open Parse

variable {s : State} {p q : Production}

/-! ### Productions -/

/-- A production gives what the production gives that the current token is left to. -/
theorem sameAt_reader (d : Dialect) (n : Nat) (hreader : d.reader s.cursor.here.kind n p = q) :
    SameAt s (d.grammar.production q) (d.grammar.production p) := by
  induction n generalizing p with
  | zero =>
    rw [reader] at hreader
    exact hreader ▸ .refl s _
  | succ n ih =>
    rw [reader] at hreader
    split at hreader
    · rename_i r hnext
      obtain ⟨rule, hrule, hleaves⟩ := Option.bind_eq_some_iff.1 hnext
      rw [d.production_eq_unfolded p, Grammar.unfolded, hrule]
      refine .after (gives_current.2 ⟨rfl, rfl⟩) (.after (a := ()) (gives_tell.2 rfl) ?_)
      exact (ih hreader).trans (Rule.sameAt_next hleaves)
    · exact hreader ▸ .refl s _

/-- In front of a token that begins something in the full dialect only, the basic dialect gives
up. -/
theorem blockedAt_parseWithin (hp : basic.grammar.isRegistered p = true)
    (hkind : s.cursor.here.kind ∈ fullOnly) (depth : Nat) :
    BlockedAt s (basic.grammar.parseWithin depth p) := by
  induction depth generalizing p with
  | zero => exact .inr rfl
  | succ depth ih =>
    obtain ⟨rule, hrule⟩ := Option.isSome_iff_exists.1 hp
    rw [Grammar.parseWithin_succ, Grammar.unfolded, hrule]
    refine .after (gives_current.2 ⟨rfl, rfl⟩) (.after (a := ()) (gives_tell.2 rfl) ?_)
    exact rule.blockedAt_parse hrule hkind fun q hq => ih (isRegistered_of_calls hrule (.inl hq))

/-- The production of the full dialect that has the rule of a production of the basic one.  They
differ in the entry to the primaries. -/
def counterpart (p : Production) : Production :=
  if p = .primary then .boolean else p

theorem rule?_counterpart {rule : Rule} (hrule : basic.grammar.rule? p = some rule) :
    full.grammar.rule? (counterpart p) = some rule := by
  cases p <;> cases hrule <;> rfl

/-- Where the basic dialect goes on, the full one passes over the primaries that the basic one does
not have. -/
theorem sameAt_counterpart (hkind : s.cursor.here.kind ∉ fullOnly) :
    SameAt s (full.grammar.production (counterpart p)) (full.grammar.production p) := by
  by_cases hp : p = .primary
  · subst hp
    refine full.sameAt_reader 3 ?_
    generalize s.cursor.here.kind = kind at hkind
    cases kind <;> first | rfl | exact absurd (by decide) hkind
  · rw [counterpart, if_neg hp]
    exact .refl s _

/-- Where the basic dialect goes on, the full one passes over the statements that the basic one does
not have. -/
theorem sameAt_statement (hkind : s.cursor.here.kind ∉ fullOnly) :
    SameAt s (full.grammar.production .declaration) full.grammar.statement := by
  refine full.sameAt_reader (p := .conditional) 6 ?_
  generalize s.cursor.here.kind = kind at hkind
  cases kind <;> first | rfl | exact absurd (by decide) hkind

/-- Every production of the basic dialect is extended by that of the full one, however few calls it
may make. -/
theorem extends_parseWithin (hp : basic.grammar.isRegistered p = true) (depth : Nat) :
    Extends (basic.grammar.parseWithin depth p) (full.grammar.production p) := by
  induction depth generalizing p with
  | zero => exact fun s => .inr (.inr rfl)
  | succ depth ih =>
    intro s
    by_cases hkind : s.cursor.here.kind ∈ fullOnly
    · exact .inr (blockedAt_parseWithin hp hkind _)
    · obtain ⟨rule, hrule⟩ := Option.isSome_iff_exists.1 hp
      refine ExtendsAt.trans_sameAt ?_ (sameAt_counterpart hkind)
      rw [Grammar.parseWithin_succ, full.production_eq_unfolded, Grammar.unfolded, hrule,
        Grammar.unfolded, rule?_counterpart hrule]
      refine Extends.step current (fun token => (extends_tell _ _).bind fun _ => ?_) s
      exact rule.extends_parse hrule (fun q hq => ih (isRegistered_of_calls hrule (.inr hq)))
        fun q hq => ih (isRegistered_of_calls hrule (.inl hq))

theorem blockedAt_production (hp : basic.grammar.isRegistered p = true)
    (hkind : s.cursor.here.kind ∈ fullOnly) : BlockedAt s (basic.grammar.production p) := by
  have hblocked := blockedAt_parseWithin hp hkind s.depthBound
  rwa [BlockedAt, StopsAt, ← Grammar.run_production] at hblocked

theorem extends_production (hp : basic.grammar.isRegistered p = true) :
    Extends (basic.grammar.production p) (full.grammar.production p) := by
  intro s
  have hextends := extends_parseWithin hp s.depthBound s
  rwa [ExtendsAt, SameAt, BlockedAt, StopsAt, ← Grammar.run_production] at hextends

theorem statement_basic : basic.grammar.statement = basic.grammar.production .declaration := rfl

theorem extends_statement : Extends basic.grammar.statement full.grammar.statement := by
  intro s
  rw [statement_basic]
  by_cases hkind : s.cursor.here.kind ∈ fullOnly
  · exact .inr (blockedAt_production rfl hkind)
  · exact (extends_production rfl s).trans_sameAt (sameAt_statement hkind)

/-- On every row of tokens the full dialect gives the outcome of the basic one, with the same tree
or the same fault at the same place, the same variables and the same tokens left; or else the basic
dialect gives up in front of a token that begins something in the full dialect only, and reports
this token as unexpected.  So the full dialect accepts what the basic one accepts, with the same
tree and the same variables. -/
theorem full_extends_basic (tokens : List Token) (file : String) :
    (((full.parse tokens file).result = (basic.parse tokens file).result ∧
        (full.parse tokens file).state = (basic.parse tokens file).state) ∨
      ∃ token ∈ tokens, token = (basic.parse tokens file).state.cursor.here ∧
        token.kind ∈ [TokenKind.openParen, .str, .char, .kwIf, .kwFor, .kwWhile, .kwLoop, .kwBreak,
          .kwContinue] ∧
        (basic.parse tokens file).result =
          .error (.fault ⟨.unexpectedToken token.value, token.span.start⟩)) ∧
    ∀ program, (basic.parse tokens file).result = .ok program →
      (full.parse tokens file).result = .ok program ∧
        (full.parse tokens file).state.symbols = (basic.parse tokens file).state.symbols := by
  have hextends : ExtendsAt (State.ofTokens tokens file) basic.grammar.program
      full.grammar.program := extends_statement.many _
  have houtcome : SameAt (State.ofTokens tokens file) basic.grammar.program full.grammar.program ∨
      StopsAt (State.ofTokens tokens file) basic.grammar.program := by
    rcases hextends with hsame | hstops | hexhausted
    · exact .inl hsame
    · exact .inr hstops
    · obtain ⟨report, hreport, -⟩ :=
        (basic.proceeds_program (State.ofTokens tokens file)).ofProgram _ hexhausted
      cases hreport
  constructor
  · refine houtcome.imp_right ?_
    rintro ⟨token, rfl, hkind, hresult⟩
    have hforward := (basic.proceeds_program (State.ofTokens tokens file)).forward
    refine ⟨_, hforward.here_mem ?_, rfl, hkind, hresult⟩
    exact ne_of_mem_of_not_mem hkind (by decide)
  · intro program hprogram
    rcases houtcome with ⟨hresult, hstate⟩ | ⟨token, -, -, hresult⟩
    · exact ⟨hresult.trans hprogram, congrArg State.symbols hstate⟩
    · rw [Dialect.parse, hresult] at hprogram
      cases hprogram

end Dialect

end Cascade
