import Mathlib.Tactic.Common
import Cascade.Proofs.Depth
import Cascade.Proofs.Runs
import Cascade.Proofs.Written

/-!
# Parsing steps that realize an elaboration

A parsing step realizes an elaboration between two places in the tokens if, whatever variables are
declared, it ends with the same value or the same fault and with the same variables; and if it
succeeds, it moves from the one place to the other.

## Main definitions

* `Cursor.Reads` : some words stand between two places.
* `Parse.Realizes` : a parsing step and an elaboration do the same.
* `Dialect.reader` : the production that reads a token.

## Main results

* `Parse.Realizes.bind`, `Parse.Realizes.step` : sequences are realized part by part.
* `Dialect.realizes_production` : a production realizes what its rule realizes.
* `Dialect.realizes_reader` : a production realizes what the production behind it realizes that
  looks for the current token.
-/

namespace Cascade

open Written

/-! ### Words between two places -/

namespace Cursor

/-- Whether some words stand between two places. -/
def Reads : Cursor → List Word → Cursor → Prop
  | c, [], c' => c' = c
  | c, word :: words, c' =>
    (c.here.kind = word.kind ∧ c.here.value = word.text) ∧ c.advance.Reads words c'

theorem reads_nil {c c' : Cursor} : c.Reads [] c' ↔ c' = c := Iff.rfl

theorem reads_cons {c c' : Cursor} {word : Word} {words : List Word} :
    c.Reads (word :: words) c' ↔
      (c.here.kind = word.kind ∧ c.here.value = word.text) ∧ c.advance.Reads words c' :=
  Iff.rfl

/-- Two rows of words stand one behind the other. -/
theorem reads_append {c c' : Cursor} {words words' : List Word} :
    c.Reads (words ++ words') c' ↔ ∃ d, c.Reads words d ∧ d.Reads words' c' := by
  induction words generalizing c with
  | nil => simp [reads_nil]
  | cons word words ih => simp only [List.cons_append, reads_cons, ih, and_assoc, exists_and_left]

/-- Every word is one token. -/
theorem Reads.length_remaining {c c' : Cursor} {words : List Word} (h : c.Reads words c') :
    c.remaining.length = words.length + c'.remaining.length := by
  induction words generalizing c with
  | nil => simp [reads_nil.1 h]
  | cons word words ih =>
    obtain ⟨⟨hkind, -⟩, hrest⟩ := reads_cons.1 h
    have heof : c.here.kind ≠ .eof := hkind ▸ word.inside
    have hlength := ih hrest
    rw [remaining_advance heof] at hlength
    simp only [remaining, List.length_cons] at hlength ⊢
    omega

/-- Words that are laid out in front of some tokens are read up to these tokens. -/
theorem reads_of_remaining {c c' : Cursor} {place : Nat → Span} {words : List Word}
    (h : c.remaining = lay place words ++ c'.remaining) : c.Reads words c' := by
  induction words generalizing c place with
  | nil => exact (ext_remaining h).symm
  | cons word words ih =>
    rw [lay, List.mapIdx_cons, List.cons_append] at h
    obtain ⟨hhere, hahead⟩ := List.cons.inj h
    have hrest : c.advance.remaining = lay (fun i => place (i + 1)) words ++ c'.remaining := by
      rw [remaining_advance (by rw [hhere]; exact word.inside), hahead]
      rfl
    exact reads_cons.2 ⟨by rw [hhere]; exact ⟨rfl, rfl⟩, ih hrest⟩

end Cursor

/-! ### Realization -/

namespace Parse

variable {α β : Type}

/-- Whether a step ends with a fault in a state, and with the given variables. -/
def Fails (p : Parse α) (s : State) (fault : Fault) (symbols : Symbols) : Prop :=
  (∃ q, (p.run s).result = .error (.fault ⟨fault, q⟩)) ∧ (p.run s).state.symbols = symbols

/-- Whether a step ends in a state as an elaboration ends, and at the given place if it succeeds. -/
def EndsAs (p : Parse α) (s : State) (c' : Cursor) : Except Fault α × Symbols → Prop
  | (.ok a, symbols) => p.Gives s a ⟨c', symbols⟩
  | (.error fault, symbols) => p.Fails s fault symbols

/-- Whether a step does what an elaboration does, whatever variables are declared, and moves from
one place to another if it succeeds. -/
def Realizes (p : Parse α) (x : Elaborator α) (c c' : Cursor) : Prop :=
  ∀ symbols, p.EndsAs ⟨c, symbols⟩ c' (x.run.run symbols)

variable {p : Parse α} {x : Elaborator α} {f : α → Parse β} {c c' d : Cursor}

theorem Fails.bind {s : State} {fault : Fault} {symbols : Symbols} (h : p.Fails s fault symbols)
    (f : α → Parse β) : (p >>= f).Fails s fault symbols := by
  obtain ⟨⟨q, hresult⟩, hsymbols⟩ := h
  rw [Fails, run_bind_of_error hresult]
  exact ⟨⟨q, rfl⟩, hsymbols⟩

/-- A step that succeeds is followed by the next one. -/
theorem Gives.bind {s t : State} {a : α} {ending : Except Fault β × Symbols} (h : p.Gives s a t)
    (hf : (f a).EndsAs t c' ending) : (p >>= f).EndsAs s c' ending := by
  match ending with
  | (.ok b, symbols) => exact gives_bind.2 ⟨a, t, h, hf⟩
  | (.error fault, symbols) =>
    obtain ⟨hresult, rfl⟩ := h
    obtain ⟨⟨q, hfault⟩, hsymbols⟩ := hf
    refine ⟨⟨q, ?_⟩, ?_⟩
    · rw [run_bind_of_ok hresult, hfault]
    · rw [run_bind_of_ok hresult, hsymbols]

/-- A sequence is realized part by part; the second part has to be realized for those values only
that the first part can end with. -/
theorem Realizes.bind_of {g : α → Elaborator β} (h : p.Realizes x c d)
    (hf : ∀ a, (∃ s t, x.run.run s = (.ok a, t)) → (f a).Realizes (g a) d c') :
    (p >>= f).Realizes (x >>= g) c c' := by
  intro symbols
  have hp := h symbols
  rw [ExceptT.run_bind, StateT.run_bind]
  match hx : x.run.run symbols with
  | (.error fault, between) =>
    rw [hx] at hp
    exact hp.bind f
  | (.ok a, between) =>
    rw [hx] at hp
    exact Gives.bind hp (hf a ⟨symbols, between, hx⟩ between)

theorem Realizes.bind {g : α → Elaborator β} (h : p.Realizes x c d)
    (hf : ∀ a, (f a).Realizes (g a) d c') : (p >>= f).Realizes (x >>= g) c c' :=
  h.bind_of fun a _ => hf a

/-- What follows a computation without variables may use what that computation gives. -/
theorem Realizes.bind_lift {y : Except Fault α} {g : α → Elaborator β}
    (h : p.Realizes (liftM y) c d) (hf : ∀ a, y = .ok a → (f a).Realizes (g a) d c') :
    (p >>= f).Realizes (liftM y >>= g) c c' := by
  refine h.bind_of fun a => ?_
  rintro ⟨s, t, hy⟩
  exact hf a (Prod.mk.inj hy).1

/-- A step behind an elaboration only looks around or moves on. -/
theorem Realizes.trail {f : α → Parse α} (h : p.Realizes x c d)
    (hf : ∀ a, (f a).Realizes (pure a) d c') : (p >>= f).Realizes x c c' := by
  have hbind := h.bind hf
  rwa [bind_pure] at hbind

/-- A step that only looks around or moves on leaves the elaboration to the steps behind it. -/
theorem Realizes.step {a : α} {y : Elaborator β} (h : p.Realizes (pure a) c d)
    (hf : (f a).Realizes y d c') : (p >>= f).Realizes y c c' :=
  fun symbols => Gives.bind (h symbols) (hf symbols)

/-! ### Primitive steps -/

theorem realizes_pure (a : α) : (pure a : Parse α).Realizes (pure a) c c :=
  fun _ => gives_pure.2 ⟨rfl, rfl⟩

theorem realizes_current : current.Realizes (pure c.here) c c :=
  fun _ => gives_current.2 ⟨rfl, rfl⟩

theorem realizes_kind : kind.Realizes (pure c.here.kind) c c :=
  fun _ => gives_kind.2 ⟨rfl, rfl⟩

theorem realizes_position : position.Realizes (pure c.here.span.start) c c :=
  fun _ => gives_position.2 ⟨rfl, rfl⟩

theorem realizes_tell (event : Event) : (tell event).Realizes (pure ()) c c :=
  fun _ => gives_tell.2 rfl

theorem realizes_advance : advance.Realizes (pure c.here) c c.advance :=
  fun _ => gives_advance.2 ⟨rfl, rfl⟩

theorem realizes_expect {expected : TokenKind} (h : c.here.kind = expected) (description : String) :
    (expect expected description).Realizes (pure c.here) c c.advance :=
  fun _ => gives_expect.2 ⟨h, rfl, rfl⟩

theorem realizes_semicolon (h : c.here.kind = .semicolon) :
    terminator.Realizes (pure ()) c c.advance :=
  fun _ => gives_terminator.2 (.inl ⟨h, rfl⟩)

theorem realizes_closeParen (h : c.here.kind = .closeParen) : terminator.Realizes (pure ()) c c :=
  fun _ => gives_terminator.2 (.inr ⟨h, rfl⟩)

theorem realizes_declare (name : String) (type : ValueType) :
    (declare name type).Realizes (modify fun symbols => symbols.declare name type) c c :=
  fun _ => gives_declare.2 rfl

theorem realizes_settle (q : Position) (y : Except Fault α) (events : List Event) :
    (settle q y events).Realizes (liftM y) c c := by
  intro symbols
  cases y with
  | error fault => exact ⟨⟨q, rfl⟩, rfl⟩
  | ok a => exact gives_settle.2 ⟨rfl, rfl⟩

theorem realizes_fold (e : Cascade.Expr) : (fold e).Realizes (liftM e.fold) c c :=
  realizes_position.step (realizes_settle _ _ _)

/-- Folding changes nothing in a folded expression. -/
theorem realizes_fold_of_isFolded {e : Cascade.Expr} (h : e.IsFolded) :
    (fold e).Realizes (pure e) c c := by
  have hfold := realizes_fold (c := c) e
  rw [Expr.fold_of_isFolded h] at hfold
  exact hfold

theorem realizes_symbols : symbols.Realizes get c c :=
  fun _ => ⟨rfl, rfl⟩

/-- What follows a check that leaves its value as it is goes on with that value. -/
theorem Realizes.settle_check {γ : Type} {q : Position} {checked : Inspection γ}
    {value : Cascade.Expr} {f : Cascade.Expr → Parse β} {y : Elaborator β}
    (hafter : checked.after = value) (hf : (f value).Realizes y c c') :
    (settle q (checked.outcome.map fun _ => checked.after) checked.events >>= f).Realizes
      (liftM checked.outcome >>= fun _ => y) c c' := by
  rw [hafter]
  cases checked.outcome with
  | error fault => exact fun _ => ⟨⟨q, rfl⟩, rfl⟩
  | ok a => exact (realizes_settle q (.ok value) checked.events).step hf

section Checks

variable {q : Position} {value : Cascade.Expr} {f : Cascade.Expr → Parse β} {y : Elaborator β}

/-- Checking a folded value lets it pass, or ends with a fault. -/
theorem Realizes.checkValue {type : ValueType} (hfolded : value.IsFolded)
    (hf : (f value).Realizes y c c') :
    (checkValue q type value >>= f).Realizes
      (do ((← get).checkValue type value).outcome; y) c c' := by
  rw [Parse.checkValue, bind_assoc]
  exact realizes_symbols.bind fun table =>
    settle_check (Symbols.after_checkValue hfolded table type) hf

/-- Checking a folded value for a variable lets it pass, or ends with a fault. -/
theorem Realizes.checkAssignment {name : String} (hfolded : value.IsFolded)
    (hf : (f value).Realizes y c c') :
    (checkAssignment q name value >>= f).Realizes
      (do let _ ← ((← get).checkAssignment name value).outcome; y) c c' := by
  rw [Parse.checkAssignment, bind_assoc]
  exact realizes_symbols.bind fun table =>
    settle_check (Symbols.after_checkAssignment hfolded table name) hf

end Checks

/-- A step with as many rounds as there are tokens left. -/
theorem Realizes.withTokensLeft {step : Nat → Parse α}
    (h : (step c.remaining.length).Realizes x c c') : (withTokensLeft step).Realizes x c c' :=
  fun symbols => h symbols

/-! ### Expressions -/

/-- Only an expression is acceptable, and it is one. -/
theorem Realizes.onlyExpr {step : Parse Cascade.Stmt} {y : Elaborator Cascade.Expr}
    (h : step.Realizes (do return .expr (← y)) c c') : (onlyExpr step).Realizes y c c' := by
  intro symbols
  have hstep := h symbols
  rw [ExceptT.run_bind, StateT.run_bind] at hstep
  match hy : y.run.run symbols with
  | (.error fault, symbols') =>
    rw [hy] at hstep
    exact Fails.bind hstep _
  | (.ok e, symbols') =>
    rw [hy] at hstep
    exact gives_onlyExpr.2 hstep

end Parse

/-! ### Rules that hand over -/

/-- The kind of token that a rule looks for before it does anything else. -/
def Rule.keyword? : Rule → Option TokenKind
  | .conditional => some .kwIf
  | .forLoop => some .kwFor
  | .whileLoop => some .kwWhile
  | .loop => some .kwLoop
  | .jump target => some target.keyword
  | .declaration => some .kwLet
  | .parenthesis => some .openParen
  | .leaf kind _ _ => some kind
  | .assignment | .forward _ | .level _ _ _ | .unary | .number => none

/-- The production that a rule leaves a token to, if it is not a token that the rule looks for. -/
def Rule.leavesTo? (rule : Rule) (kind : TokenKind) : Option Production :=
  match rule.keyword? with
  | some wanted => if kind = wanted then none else rule.next?
  | none => none

/-- The production that a token is left to after at most `n` steps down the cascade. -/
def Dialect.reader (d : Dialect) (kind : TokenKind) : Nat → Production → Production
  | 0, p => p
  | n + 1, p =>
    match (d.grammar.rule? p).bind fun rule => rule.leavesTo? kind with
    | some q => d.reader kind n q
    | none => p

section Handover

open Parse

variable {x : Elaborator Stmt} {c c' : Cursor} {p q : Production} {rule : Rule}

/-- A rule that does not look for the current token leaves all to the production behind it. -/
theorem Rule.realizes_next {production : Production → Parse Stmt} {statement : Parse Stmt}
    (hnext : rule.leavesTo? c.here.kind = some q) (h : (production q).Realizes x c c') :
    (rule.parse production statement).Realizes x c c' := by
  unfold Rule.leavesTo? at hnext
  cases rule <;> simp only [Rule.keyword?, Option.ite_none_left_eq_some, reduceCtorEq] at hnext
  all_goals
    obtain ⟨hkind, hq⟩ := hnext
    cases hq
    refine realizes_kind.step ?_
    rw [if_pos hkind]
    exact h

/-- A production realizes what its rule realizes. -/
theorem Dialect.realizes_production {d : Dialect} (hrule : d.grammar.rule? p = some rule)
    (h : (rule.parse d.grammar.production d.grammar.statement).Realizes x c c') :
    (d.grammar.production p).Realizes x c c' := by
  rw [d.production_eq_unfolded, Grammar.unfolded, hrule]
  exact realizes_current.step ((realizes_tell _).step h)

/-- A production realizes what the production realizes that the current token is left to. -/
theorem Dialect.realizes_reader {d : Dialect} (n : Nat) (hreader : d.reader c.here.kind n p = q)
    (h : (d.grammar.production q).Realizes x c c') : (d.grammar.production p).Realizes x c c' := by
  induction n generalizing p with
  | zero =>
    rw [reader] at hreader
    exact hreader ▸ h
  | succ n ih =>
    rw [reader] at hreader
    split at hreader
    · rename_i r hnext
      obtain ⟨rule, hrule, hleaves⟩ := Option.bind_eq_some_iff.1 hnext
      exact realizes_production hrule (Rule.realizes_next hleaves (ih hreader))
    · exact hreader ▸ h

end Handover

end Cascade
