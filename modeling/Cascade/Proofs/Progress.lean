import Mathlib.Tactic.Common
import Cascade.Proofs.Depth
import Cascade.Proofs.Faults
import Cascade.Proofs.Runs

/-!
# Progress

In a dialect every production that succeeds has read at least one token, and every production that
fails does so because of the program: a rule calls for productions only that have rules themselves,
and no repetition runs out of rounds.  So parsing comes to an end on every row of tokens, however
malformed it is.

## Main definitions

* `Failure.OfProgram` : a failure that is due to the program and not to the grammar.
* `State.Passes` : a state lies a number of tokens further on than another one.
* `Parse.ProceedsAt`, `Parse.ProceedsOn` : a step fails because of the program, or reads a number of
  tokens.
* `Rule.inner` : the productions that a rule may call for behind its first token.

## Main results

* `Parse.ProceedsOn.many` : a step that reads a token each time can be repeated.
* `Rule.proceedsOn_parse` : a rule reads a token if the productions that it calls for do.
* `Dialect.proceedsOn_production` : every production of a dialect reads a token, or the program is
  wrong.
* `Dialect.parse_proceeds` : parsing comes to an end, and it fails because of the program only.
-/

namespace Cascade

/-! ### Failures -/

/-- Whether a fault is due to the program: the grammar has a start and the rule that was asked
for. -/
def Fault.OfProgram (fault : Fault) : Prop :=
  fault ≠ .noRootProduction ∧ ∀ production, fault ≠ .unregisteredProduction production

theorem Fault.ofProgram_of_stage {fault : Fault} (h : fault.stage ≠ .grammar) :
    fault.OfProgram := by
  constructor
  · rintro rfl
    exact h rfl
  · rintro production rfl
    exact h rfl

/-- Whether a failure is due to the program and not to the grammar. -/
def Failure.OfProgram (failure : Failure) : Prop :=
  ∃ report, failure = .fault report ∧ report.fault.OfProgram

/-! ### Tokens that are passed -/

namespace State

/-- Whether a state lies at least `k` tokens further on than another one. -/
def Passes (k : Nat) (s s' : State) : Prop :=
  ∃ read : List Token, s.cursor.remaining = read ++ s'.cursor.remaining ∧ k ≤ read.length

variable {j k : Nat} {s t u : State}

theorem Passes.refl (s : State) : s.Passes 0 s :=
  ⟨[], rfl, Nat.le_refl _⟩

theorem Passes.trans (h : s.Passes j t) (h' : t.Passes k u) : s.Passes (j + k) u := by
  obtain ⟨read, hread, hj⟩ := h
  obtain ⟨read', hread', hk⟩ := h'
  refine ⟨read ++ read', ?_, ?_⟩
  · rw [hread, hread', List.append_assoc]
  · rw [List.length_append]
    omega

theorem Passes.weaken (h : s.Passes k t) (hjk : j ≤ k) : s.Passes j t := by
  obtain ⟨read, hread, hk⟩ := h
  exact ⟨read, hread, Nat.le_trans hjk hk⟩

/-- As many tokens as are passed are left no more. -/
theorem Passes.size_add_le (h : s.Passes k t) : t.size + k ≤ s.size := by
  obtain ⟨read, hread, hk⟩ := h
  rw [State.size, State.size, hread, List.length_append]
  omega

/-- Moving on from a token that is no end mark passes it. -/
theorem passes_advance (h : s.cursor.here.kind ≠ .eof) : s.Passes 1 s.advance :=
  ⟨[s.cursor.here], congrArg (s.cursor.here :: ·) (Cursor.remaining_advance h).symm,
    Nat.le_refl _⟩

theorem passes_advance_zero (s : State) : s.Passes 0 s.advance := by
  by_cases h : s.cursor.here.kind = .eof
  · exact ⟨[], by rw [cursor_advance, Cursor.advance_of_eof h]; rfl, Nat.le_refl _⟩
  · exact (passes_advance h).weaken (Nat.zero_le _)

/-- Every state that is reached from some tokens is at one of them, or at the end mark. -/
theorem Passes.here_mem {tokens : List Token} {file : String}
    (h : (State.ofTokens tokens file).Passes k s) (heof : s.cursor.here.kind ≠ .eof) :
    s.cursor.here ∈ tokens := by
  obtain ⟨read, hread, -⟩ := h
  have hmem : s.cursor.here ∈ Cursor.close tokens file := by
    rw [← Cursor.remaining_ofTokens]
    exact hread ▸ List.mem_append_right read List.mem_cons_self
  unfold Cursor.close at hmem
  split at hmem
  · exact hmem
  · rcases List.mem_append.1 hmem with hmem | hmem
    · exact hmem
    · exact absurd (congrArg Token.kind (List.mem_singleton.1 hmem)) heof

end State

/-! ### Steps that proceed -/

namespace Parse

variable {α β : Type} {n j k : Nat} {s : State}

/-- Whether a step that succeeds in a state passes at least `k` tokens, and fails because of the
program only. -/
structure ProceedsAt (k : Nat) (s : State) (p : Parse α) : Prop where
  /-- No token is put back, whatever happens. -/
  forward : s.Passes 0 (p.run s).state
  /-- A value is given behind at least `k` tokens. -/
  passes : ∀ a t, p.Gives s a t → s.Passes k t
  /-- If there is no value, the program is wrong. -/
  ofProgram : ∀ failure, (p.run s).result = .error failure → failure.OfProgram

/-- Whether a step passes at least `k` tokens in every state. -/
def Proceeds (k : Nat) (p : Parse α) : Prop :=
  ∀ s, ProceedsAt k s p

/-- Whether a step passes at least `k` tokens in every state with at most `n` tokens left. -/
def ProceedsOn (n k : Nat) (p : Parse α) : Prop :=
  ∀ s : State, s.size ≤ n → ProceedsAt k s p

theorem Proceeds.on {p : Parse α} (h : p.Proceeds k) : ProceedsOn n k p :=
  fun s _ => h s

/-- A step that proceeds does not run out of calls or rounds. -/
theorem ProceedsAt.not_exhausted {p : Parse α} (h : ProceedsAt k s p) :
    (p.run s).result ≠ .error .exhausted := by
  intro hresult
  obtain ⟨report, hreport, -⟩ := h.ofProgram _ hresult
  cases hreport

/-- There is always a token left. -/
theorem ProceedsOn.zero {p : Parse α} : ProceedsOn 0 k p :=
  fun s hs => absurd s.size_pos (Nat.not_lt.2 hs)

theorem ProceedsOn.mono {p : Parse α} (h : ProceedsOn n k p) {m : Nat} (hmn : m ≤ n) :
    ProceedsOn m k p :=
  fun s hs => h s (Nat.le_trans hs hmn)

theorem ProceedsAt.weaken {p : Parse α} (h : ProceedsAt k s p) (hjk : j ≤ k) : ProceedsAt j s p :=
  ⟨h.forward, fun a t hgives => (h.passes a t hgives).weaken hjk, h.ofProgram⟩

theorem ProceedsOn.weaken {p : Parse α} (h : ProceedsOn n k p) : ProceedsOn n 0 p :=
  fun s hs => (h s hs).weaken (Nat.zero_le k)

/-- A sequence passes the tokens that its parts pass. -/
theorem ProceedsAt.bind {p : Parse α} {f : α → Parse β} (h : ProceedsAt j s p)
    (hf : ∀ a t, p.Gives s a t → ProceedsAt k t (f a)) : ProceedsAt (j + k) s (p >>= f) := by
  constructor
  · cases hresult : (p.run s).result with
    | error first =>
      rw [run_bind_of_error hresult]
      exact h.forward
    | ok a =>
      rw [run_bind_of_ok hresult]
      exact h.forward.trans (hf a _ ⟨hresult, rfl⟩).forward
  · intro b u hgives
    obtain ⟨a, t, hfirst, hsecond⟩ := gives_bind.1 hgives
    exact (h.passes a t hfirst).trans ((hf a t hfirst).passes b u hsecond)
  · intro failure hfailure
    cases hresult : (p.run s).result with
    | error first =>
      rw [run_bind_of_error hresult] at hfailure
      cases hfailure
      exact h.ofProgram _ hresult
    | ok a =>
      rw [run_bind_of_ok hresult] at hfailure
      exact (hf a _ ⟨hresult, rfl⟩).ofProgram failure hfailure

theorem Proceeds.bind {p : Parse α} {f : α → Parse β} (h : p.Proceeds j)
    (hf : ∀ a, (f a).Proceeds k) : (p >>= f).Proceeds (j + k) :=
  fun s => (h s).bind fun a t _ => hf a t

/-- The second part of a sequence has to proceed for those values only that the first part gives. -/
theorem ProceedsOn.bind_of {p : Parse α} {f : α → Parse β} (h : ProceedsOn n j p)
    (hf : ∀ a, (∃ s t, p.Gives s a t) → ProceedsOn n k (f a)) : ProceedsOn n (j + k) (p >>= f) := by
  intro s hs
  refine (h s hs).bind fun a t hgives => hf a ⟨s, t, hgives⟩ t ?_
  have hsize := ((h s hs).passes a t hgives).size_add_le
  omega

theorem ProceedsOn.bind {p : Parse α} {f : α → Parse β} (h : ProceedsOn n j p)
    (hf : ∀ a, ProceedsOn n k (f a)) : ProceedsOn n (j + k) (p >>= f) :=
  h.bind_of fun a _ => hf a

/-- A sequence whose tokens need not be counted. -/
theorem ProceedsOn.andThen {p : Parse α} {f : α → Parse β} (h : ProceedsOn n k p)
    (hf : ∀ a, ProceedsOn n 0 (f a)) : ProceedsOn n 0 (p >>= f) :=
  h.weaken.bind hf

/-- Behind a step that passes a token there are fewer tokens left. -/
theorem ProceedsOn.bind_fewer {p : Parse α} {f : α → Parse β} (h : ProceedsOn (n + 1) 1 p)
    (hf : ∀ a, ProceedsOn n 0 (f a)) : ProceedsOn (n + 1) 1 (p >>= f) := by
  intro s hs
  refine (h s hs).bind fun a t hgives => hf a t ?_
  have hsize := ((h s hs).passes a t hgives).size_add_le
  omega

/-! ### Primitive steps -/

/-- A step that stays where it is passes no token. -/
theorem proceeds_of_stays {p : Parse α} (hcursor : ∀ s, (p.run s).state.cursor = s.cursor)
    (hfails : ∀ s failure, (p.run s).result = .error failure → failure.OfProgram) :
    p.Proceeds 0 := by
  intro s
  have hstays : s.Passes 0 (p.run s).state := ⟨[], by rw [hcursor]; rfl, Nat.le_refl _⟩
  refine ⟨hstays, ?_, hfails s⟩
  rintro a t ⟨-, rfl⟩
  exact hstays

theorem proceeds_pure (a : α) : (pure a : Parse α).Proceeds 0 :=
  proceeds_of_stays (fun _ => rfl) fun _ _ h => by cases h

theorem proceeds_current : current.Proceeds 0 :=
  proceeds_of_stays (fun _ => rfl) fun _ _ h => by cases h

theorem proceeds_kind : kind.Proceeds 0 :=
  proceeds_current.bind fun _ => proceeds_pure _

theorem proceeds_position : position.Proceeds 0 :=
  proceeds_current.bind fun _ => proceeds_pure _

theorem proceeds_symbols : symbols.Proceeds 0 :=
  proceeds_of_stays (fun _ => rfl) fun _ _ h => by cases h

theorem proceeds_tell (event : Event) : (tell event).Proceeds 0 :=
  proceeds_of_stays (fun _ => rfl) fun _ _ h => by cases h

theorem proceeds_declare (name : String) (type : ValueType) : (declare name type).Proceeds 0 :=
  proceeds_of_stays (fun _ => rfl) fun _ _ h => by cases h

/-- A step that fails passes as many tokens as one likes. -/
theorem proceeds_fail {fault : Fault} (h : fault.stage ≠ .grammar) :
    (fail fault : Parse α).Proceeds k := by
  refine fun s => ⟨.refl s, fun a t hgives => absurd hgives not_gives_fail, ?_⟩
  intro failure hfailure
  cases hfailure
  exact ⟨_, rfl, Fault.ofProgram_of_stage h⟩

theorem proceeds_settle {q : Position} {result : Except Fault α} {events : List Event}
    (h : ∀ fault, result = .error fault → fault.stage ≠ .grammar) :
    (settle q result events).Proceeds 0 := by
  refine proceeds_of_stays (fun _ => rfl) fun s failure hfailure => ?_
  cases result with
  | error fault =>
    cases hfailure
    exact ⟨_, rfl, Fault.ofProgram_of_stage (h fault rfl)⟩
  | ok a => cases hfailure

theorem proceeds_fold (e : Expr) : (fold e).Proceeds 0 :=
  proceeds_position.bind fun _ => proceeds_settle fun fault hfault =>
    ne_of_eq_of_ne (Expr.stage_of_fold hfault) (by decide)

/-- A check that can find faults of its own only. -/
theorem proceeds_settle_check {γ : Type} {q : Position} {checked : Inspection γ}
    (h : ∀ fault, checked.outcome = .error fault → fault.stage = .checking) :
    (settle q (checked.outcome.map fun _ => checked.after) checked.events).Proceeds 0 := by
  refine proceeds_settle fun fault hfault => ?_
  cases houtcome : checked.outcome with
  | error fault' =>
    rw [houtcome] at hfault
    cases hfault
    exact ne_of_eq_of_ne (h fault houtcome) (by decide)
  | ok a => rw [houtcome] at hfault; cases hfault

theorem proceeds_checkValue {q : Position} {type : ValueType} {value : Expr}
    (hfolded : value.IsFolded) : (checkValue q type value).Proceeds 0 :=
  proceeds_symbols.bind fun _ => proceeds_settle_check fun _ => Symbols.stage_of_checkValue hfolded

theorem proceeds_checkAssignment {q : Position} {name : String} {value : Expr}
    (hfolded : value.IsFolded) : (checkAssignment q name value).Proceeds 0 :=
  proceeds_symbols.bind fun _ =>
    proceeds_settle_check fun _ => Symbols.stage_of_checkAssignment hfolded

theorem proceeds_advance : advance.Proceeds 0 := by
  refine fun s => ⟨s.passes_advance_zero, ?_, fun failure h => by cases h⟩
  rintro token t ⟨-, rfl⟩
  exact s.passes_advance_zero

/-- Moving on from a token that is no end mark passes it. -/
theorem proceedsAt_advance (h : s.cursor.here.kind ≠ .eof) : ProceedsAt 1 s advance := by
  refine ⟨s.passes_advance_zero, ?_, fun failure h => by cases h⟩
  rintro token t ⟨-, rfl⟩
  exact State.passes_advance h

theorem proceeds_expect {expected : TokenKind} (h : expected ≠ .eof) (description : String) :
    (expect expected description).Proceeds 1 := by
  intro s
  constructor
  · rw [run_expect]
    split
    · exact s.passes_advance_zero
    · exact .refl s
  · intro token t hgives
    obtain ⟨hkind, -, rfl⟩ := gives_expect.1 hgives
    exact State.passes_advance (hkind ▸ h)
  · intro failure hfailure
    rw [run_expect] at hfailure
    split at hfailure <;> cases hfailure
    exact ⟨_, rfl, Fault.ofProgram_of_stage (by simp [Fault.stage])⟩

theorem proceeds_terminator : terminator.Proceeds 0 := by
  refine proceeds_current.bind (k := 0) fun token => ?_
  split
  · exact proceeds_advance.bind fun _ => proceeds_pure _
  · split
    · exact proceeds_fail (by simp [Fault.stage])
    · exact proceeds_pure _

theorem proceeds_mutability : mutability.Proceeds 0 := by
  refine proceeds_kind.bind (k := 0) fun k => ?_
  split
  · exact proceeds_advance.bind fun _ => proceeds_pure _
  · exact proceeds_pure _

theorem proceeds_declaredType : declaredType.Proceeds 1 :=
  (proceeds_expect (by decide) _).bind fun _ => proceeds_settle fun fault hfault =>
    ne_of_eq_of_ne (ValueType.stage_of_ofName hfault) (by decide)

theorem proceeds_negated (term : Expr) : (negated term).Proceeds 0 := by
  unfold negated
  split
  · exact proceeds_pure _
  · split
    · exact proceeds_pure _
    · exact proceeds_fail (by simp [Fault.stage])

theorem proceeds_numberRule : numberRule.Proceeds 1 := by
  intro s
  refine (proceeds_current s).bind (k := 1) fun token t htoken => ?_
  obtain ⟨rfl, rfl⟩ := gives_current.1 htoken
  split
  · exact proceeds_fail (by simp [Fault.stage]) _
  · rename_i hnumber
    have hread : (settle t.cursor.here.span.start (readNumber t.cursor.here) []).Proceeds 0 :=
      proceeds_settle fun fault hfault =>
        ne_of_eq_of_ne (stage_of_readNumber hfault) (by decide)
    refine (hread t).bind (k := 1) fun value u hvalue => ?_
    obtain ⟨-, rfl⟩ := gives_settle.1 hvalue
    refine (proceedsAt_advance ?_).bind fun _ _ _ => proceeds_pure _ _
    rw [not_not.1 hnumber]
    decide

/-! ### Parts of statements -/

section Parts

variable {production : Production → Parse Stmt} {statement : Parse Stmt}

theorem ProceedsOn.onlyExpr {step : Parse Stmt} (h : ProceedsOn n k step) :
    ProceedsOn n k (onlyExpr step) := by
  refine h.bind (k := 0) fun stmt => ?_
  cases stmt with
  | expr value => exact (proceeds_pure _).on
  | assign name value => exact (proceeds_fail (by simp [Fault.stage])).on
  | declare name type isMutable value => exact (proceeds_fail (by simp [Fault.stage])).on

theorem ProceedsOn.condition (h : ProceedsOn n k (production .binary)) :
    ProceedsOn n k (condition production) :=
  h.onlyExpr.bind fun _ => (proceeds_fold _).on

theorem ProceedsAt.withTokensLeft {step : Nat → Parse α} (h : ProceedsAt k s (step s.size)) :
    ProceedsAt k s (withTokensLeft step) :=
  ⟨h.forward, h.passes, h.ofProgram⟩

/-- As many rounds as there are tokens left are enough. -/
theorem ProceedsOn.manyWithin {stop : TokenKind → Bool} {step : Parse α}
    (h : ProceedsOn n 1 step) {fuel : Nat} (hfuel : n ≤ fuel) :
    ProceedsOn n 0 (manyWithin stop step fuel) := by
  induction fuel generalizing n with
  | zero =>
    obtain rfl := Nat.le_zero.1 hfuel
    exact .zero
  | succ fuel ih =>
    cases n with
    | zero => exact .zero
    | succ n =>
      refine proceeds_kind.on.andThen fun kind => ?_
      split
      · exact (proceeds_pure _).on
      · have hrest := ih (h.mono (Nat.le_succ n)) (Nat.le_of_succ_le_succ hfuel)
        exact (h.bind_fewer fun a => hrest.andThen fun as => (proceeds_pure _).on).weaken

/-- A step that passes a token each time can be repeated. -/
theorem ProceedsOn.many {stop : TokenKind → Bool} {step : Parse α} (h : ProceedsOn n 1 step) :
    ProceedsOn n 0 (many stop step) := by
  intro s hs
  have hwithin : ProceedsOn s.size 0 (Parse.manyWithin stop step s.size) :=
    (h.mono hs).manyWithin (Nat.le_refl s.size)
  exact (hwithin s (Nat.le_refl _)).withTokensLeft

theorem ProceedsOn.scope (h : ProceedsOn n 1 statement) : ProceedsOn n 0 (scope statement) :=
  (proceeds_expect (by decide) _).on.andThen fun _ => h.many.andThen fun _ =>
    (proceeds_expect (by decide) _).on.andThen fun _ => (proceeds_pure _).on

theorem ProceedsOn.loopBody (h : ProceedsOn n 1 statement) :
    ProceedsOn n 0 (loopBody statement) := by
  refine h.scope.andThen fun body => proceeds_kind.on.andThen fun k => ?_
  split
  · exact proceeds_advance.on.andThen fun _ => h.scope.andThen fun _ => (proceeds_pure _).on
  · exact (proceeds_pure _).on

/-- Behind a token that is no end mark there are fewer tokens left. -/
theorem ProceedsOn.proceedsAt_advance {f : Token → Parse α}
    (h : ∀ token, ProceedsOn n 0 (f token)) (hs : s.size ≤ n + 1)
    (heof : s.cursor.here.kind ≠ .eof) : ProceedsAt 1 s (advance >>= f) := by
  refine (Parse.proceedsAt_advance heof).bind fun token t hgives => h token t ?_
  have hsize := ((Parse.proceedsAt_advance heof).passes token t hgives).size_add_le
  omega

/-- Every branch behind the first one begins with a token, so there are enough rounds. -/
theorem ProceedsOn.elseBranches (hproduction : ProceedsOn n 1 (production .binary))
    (hstatement : ProceedsOn n 1 statement) {fuel : Nat} (hfuel : n ≤ fuel) (chain : Chain) :
    ProceedsOn n 0 (elseBranches production statement fuel chain) := by
  induction fuel generalizing n chain with
  | zero =>
    obtain rfl := Nat.le_zero.1 hfuel
    exact .zero
  | succ fuel ih =>
    cases n with
    | zero => exact .zero
    | succ n =>
      have hproduction := hproduction.mono (Nat.le_succ n)
      have hstatement := hstatement.mono (Nat.le_succ n)
      intro s hs
      refine (proceeds_kind s).bind (k := 0) fun k t hk => ?_
      obtain ⟨rfl, rfl⟩ := gives_kind.1 hk
      split
      · exact proceeds_pure _ _
      · rename_i helse
        refine (ProceedsOn.proceedsAt_advance (fun _ => ?_) hs ?_).weaken (Nat.zero_le _)
        · refine proceeds_kind.on.andThen fun k => ?_
          split
          · exact hstatement.scope.andThen fun _ => (proceeds_pure _).on
          · exact proceeds_advance.on.andThen fun _ => hproduction.condition.andThen fun _ =>
              hstatement.scope.andThen fun _ =>
                ih hproduction hstatement (Nat.le_of_succ_le_succ hfuel) _
        · rw [not_not.1 helse]
          decide

/-- A rule that looks for a token of its own passes it, or it hands over. -/
theorem ProceedsOn.keyword {wanted : TokenKind} (hwanted : wanted ≠ .eof) {p : Parse α}
    (hp : ProceedsOn (n + 1) 1 p) {f : Token → Parse α} (hf : ∀ token, ProceedsOn n 0 (f token)) :
    ProceedsOn (n + 1) 1 (kind >>= fun k => if k ≠ wanted then p else advance >>= f) := by
  intro s hs
  refine (proceeds_kind s).bind (k := 1) fun k t hk => ?_
  obtain ⟨rfl, rfl⟩ := gives_kind.1 hk
  split
  · exact hp t hs
  · rename_i hkind
    exact ProceedsOn.proceedsAt_advance hf hs (not_not.1 hkind ▸ hwanted)

end Parts

end Parse

/-! ### Rules -/

/-- The productions that a rule may call for behind its first token, besides statements. -/
def Rule.inner : Rule → List Production
  | .conditional | .whileLoop | .declaration | .assignment => [.binary]
  | .forLoop => [.declaration, .binary, .assignment]
  | .level whole _ _ => [whole]
  | .unary => [.primary]
  | .loop | .jump _ | .forward _ | .parenthesis | .leaf _ _ _ | .number => []

/-- A dialect has rules for all the productions that its rules call for. -/
theorem Dialect.isRegistered_of_calls {d : Dialect} {p q : Production} {rule : Rule}
    (hrule : d.grammar.rule? p = some rule) (hq : rule.next? = some q ∨ q ∈ rule.inner) :
    d.grammar.isRegistered q = true := by
  have hcalls : ∀ q ∈ rule.next?.toList ++ rule.inner, d.grammar.isRegistered q = true := by
    cases d <;> cases p <;> cases hrule <;> decide
  refine hcalls q (List.mem_append.2 (hq.imp_left fun hnext => ?_))
  rw [hnext]
  exact List.mem_singleton_self q

/-- Every dialect has a start, with a rule. -/
theorem Dialect.exists_root (d : Dialect) :
    ∃ root, d.grammar.root? = some root ∧ d.grammar.isRegistered root = true := by
  cases d
  · exact ⟨.number, rfl, rfl⟩
  · exact ⟨.declaration, rfl, rfl⟩
  · exact ⟨.conditional, rfl, rfl⟩

/-- No dialect reads an end mark as a single token, and what is wrong with a single token is found
while it is read. -/
theorem Dialect.leaf_of_rule {d : Dialect} {p otherwise : Production} {kind : TokenKind}
    {read : Token → Except Fault Expr}
    (h : d.grammar.rule? p = some (.leaf kind read otherwise)) :
    kind ≠ .eof ∧ ∀ token fault, read token = .error fault → fault.stage = .reading := by
  have hkind : kind ≠ .eof := by
    cases d <;> cases p <;> cases h <;> decide
  refine ⟨hkind, fun token fault hfault => ?_⟩
  rcases read_of_leaf h with rfl | rfl | rfl | ⟨-, rfl⟩
  · exact stage_of_readStr hfault
  · exact stage_of_readChar hfault
  · cases hfault
  · cases hfault

namespace Rule

open Parse

variable {n : Nat} {production : Production → Parse Stmt} {statement : Parse Stmt}

section Statements

variable (hbinary : ProceedsOn n 1 (production .binary))

include hbinary

/-- A value is folded before it is checked. -/
theorem proceedsOn_value {check : Expr → Parse Expr} {f : Expr → Parse Stmt}
    (hcheck : ∀ value, value.IsFolded → (check value).Proceeds 0)
    (hf : ∀ value, ProceedsOn n 0 (f value)) :
    ProceedsOn n 0 (Parse.expression production .binary >>= fun e =>
      Parse.fold e >>= fun value => check value >>= f) := by
  refine hbinary.onlyExpr.andThen fun e => ?_
  refine (proceeds_fold e).on.bind_of (k := 0) fun value hvalue => ?_
  obtain ⟨s, t, hfold⟩ := hvalue
  exact (hcheck value (Expr.isFolded_of_fold (gives_fold.1 hfold).1)).on.andThen hf

theorem proceedsOn_declarationRule (hnext : ProceedsOn (n + 1) 1 (production .assignment)) :
    ProceedsOn (n + 1) 1 (declarationRule production) := by
  refine ProceedsOn.keyword (by decide) hnext fun _ => ?_
  refine proceeds_mutability.on.andThen fun isMutable => ?_
  refine (proceeds_expect (by decide) _).on.andThen fun name => ?_
  refine (proceeds_expect (by decide) _).on.andThen fun _ => ?_
  refine proceeds_declaredType.on.andThen fun type => ?_
  refine (proceeds_expect (by decide) _).on.andThen fun _ => ?_
  refine proceeds_position.on.andThen fun start => ?_
  refine proceedsOn_value hbinary (fun _ => proceeds_checkValue) fun value => ?_
  refine (proceeds_expect (by decide) _).on.andThen fun _ => ?_
  exact (proceeds_declare _ _).on.andThen fun _ => (proceeds_pure _).on

theorem proceedsOn_assignmentRule (hnext : ProceedsOn (n + 1) 1 (production .binary)) :
    ProceedsOn (n + 1) 1 (assignmentRule production) := by
  refine hnext.onlyExpr.bind_fewer fun target => proceeds_kind.on.andThen fun k => ?_
  split
  · refine proceeds_advance.on.andThen fun _ => proceeds_position.on.andThen fun start => ?_
    refine proceedsOn_value hbinary (fun _ => proceeds_checkAssignment) fun value => ?_
    exact proceeds_terminator.on.andThen fun _ => (proceeds_pure _).on
  · exact proceeds_terminator.on.andThen fun _ => (proceeds_pure _).on

theorem proceedsOn_forRule (hdeclaration : ProceedsOn n 1 (production .declaration))
    (hassignment : ProceedsOn n 1 (production .assignment)) (hstatement : ProceedsOn n 1 statement)
    (hnext : ProceedsOn (n + 1) 1 (production .whileLoop)) :
    ProceedsOn (n + 1) 1 (forRule production statement) := by
  refine ProceedsOn.keyword (by decide) hnext fun _ => ?_
  refine (proceeds_expect (by decide) _).on.andThen fun _ => hdeclaration.andThen fun init => ?_
  refine hbinary.condition.andThen fun guard => ?_
  refine (proceeds_expect (by decide) _).on.andThen fun _ => hassignment.andThen fun update => ?_
  refine (proceeds_expect (by decide) _).on.andThen fun _ => ?_
  exact hstatement.loopBody.andThen fun _ => (proceeds_pure _).on

end Statements

theorem proceedsOn_levelRule {whole operand : Production} {operators : List String}
    (hwhole : ProceedsOn n 1 (production whole))
    (hnext : ProceedsOn (n + 1) 1 (production operand)) :
    ProceedsOn (n + 1) 1 (levelRule production whole operand operators) := by
  refine hnext.onlyExpr.bind_fewer fun left => proceeds_current.on.andThen fun token => ?_
  split
  · refine proceeds_advance.on.andThen fun _ => hwhole.onlyExpr.andThen fun right => ?_
    exact (proceeds_fold _).on.andThen fun _ => (proceeds_pure _).on
  · exact (proceeds_pure _).on

theorem proceedsOn_unaryRule (hprimary : ProceedsOn n 1 (production .primary))
    (hnext : ProceedsOn (n + 1) 1 (production .primary)) :
    ProceedsOn (n + 1) 1 (unaryRule production) := by
  intro s hs
  refine (proceeds_current s).bind (k := 1) fun token t htoken => ?_
  obtain ⟨rfl, rfl⟩ := gives_current.1 htoken
  split
  · rename_i hkind
    refine ProceedsOn.proceedsAt_advance (fun _ => ?_) hs (ne_of_eq_of_ne hkind (by decide))
    split
    · exact (proceeds_fail (by simp [Fault.stage])).on
    · refine hprimary.onlyExpr.andThen fun term => ?_
      exact (proceeds_fold _).on.andThen fun _ => (proceeds_pure _).on
  split
  · rename_i hop
    simp only [Token.isOperator, Bool.and_eq_true, decide_eq_true_eq] at hop
    refine ProceedsOn.proceedsAt_advance (fun _ => ?_) hs (ne_of_eq_of_ne hop.1 (by decide))
    refine hprimary.onlyExpr.andThen fun term => ?_
    exact (proceeds_fold _).on.andThen fun _ => (proceeds_negated _).on
  · exact hnext t hs

theorem proceedsOn_leafRule {wanted : TokenKind} {read : Token → Except Fault Expr}
    {otherwise : Production} (hwanted : wanted ≠ .eof)
    (hread : ∀ token fault, read token = .error fault → fault.stage = .reading)
    (hnext : ProceedsOn (n + 1) 1 (production otherwise)) :
    ProceedsOn (n + 1) 1 (leafRule production wanted read otherwise) := by
  refine ProceedsOn.keyword hwanted hnext fun token => proceeds_position.on.andThen fun q => ?_
  refine ProceedsOn.andThen (k := 0) ?_ fun value => (proceeds_pure _).on
  exact (proceeds_settle fun fault hfault =>
    ne_of_eq_of_ne (hread token fault hfault) (by decide)).on

/-- A rule passes a token if the productions and statements that it calls for do; behind the first
token they have one token less left. -/
theorem proceedsOn_parse {d : Dialect} {p : Production} {rule : Rule}
    (hrule : d.grammar.rule? p = some rule)
    (hinner : ∀ q ∈ rule.inner, ProceedsOn n 1 (production q))
    (hstatement : ProceedsOn n 1 statement)
    (hnext : ∀ q, rule.next? = some q → ProceedsOn (n + 1) 1 (production q)) :
    ProceedsOn (n + 1) 1 (rule.parse production statement) := by
  cases rule with
  | conditional =>
    have hbinary := hinner .binary (by decide)
    refine ProceedsOn.keyword (by decide) (hnext _ rfl) fun _ => ?_
    refine hbinary.condition.andThen fun guard => hstatement.scope.andThen fun body => ?_
    refine ProceedsOn.andThen (k := 0) (fun s hs => ?_) fun chain => (proceeds_pure _).on
    have hchain := (hbinary.mono hs).elseBranches (hstatement.mono hs) (Nat.le_refl s.size)
      (Chain.push [] body (some guard))
    exact (hchain s (Nat.le_refl _)).withTokensLeft
  | forLoop =>
    exact proceedsOn_forRule (hinner .binary (by decide)) (hinner .declaration (by decide))
      (hinner .assignment (by decide)) hstatement (hnext _ rfl)
  | whileLoop =>
    refine ProceedsOn.keyword (by decide) (hnext _ rfl) fun _ => ?_
    refine (hinner .binary (by decide)).condition.andThen fun guard => ?_
    exact hstatement.loopBody.andThen fun _ => (proceeds_pure _).on
  | loop =>
    refine ProceedsOn.keyword (by decide) (hnext _ rfl) fun _ => ?_
    exact hstatement.loopBody.andThen fun _ => (proceeds_pure _).on
  | jump target =>
    refine ProceedsOn.keyword (by cases target <;> decide) (hnext _ rfl) fun _ => ?_
    exact (proceeds_expect (by decide) _).on.andThen fun _ => (proceeds_pure _).on
  | declaration => exact proceedsOn_declarationRule (hinner .binary (by decide)) (hnext _ rfl)
  | assignment => exact proceedsOn_assignmentRule (hinner .binary (by decide)) (hnext _ rfl)
  | forward target => exact hnext _ rfl
  | level whole operand operators =>
    exact proceedsOn_levelRule (hinner whole (List.mem_singleton_self whole)) (hnext _ rfl)
  | unary => exact proceedsOn_unaryRule (hinner .primary (by decide)) (hnext _ rfl)
  | parenthesis =>
    refine ProceedsOn.keyword (by decide) (hnext _ rfl) fun _ => ?_
    refine ProceedsOn.andThen (k := 0) (ProceedsOn.onlyExpr ?_) fun value => (proceeds_pure _).on
    exact hstatement.andThen fun stmt => (proceeds_expect (by decide) _).on.andThen fun _ =>
      (proceeds_pure _).on
  | leaf wanted read otherwise =>
    obtain ⟨hwanted, hread⟩ := Dialect.leaf_of_rule hrule
    exact proceedsOn_leafRule hwanted hread (hnext _ rfl)
  | number => exact proceeds_numberRule.on

end Rule

/-! ### Dialects -/

namespace Dialect

open Parse

theorem proceedsOn_start (d : Dialect) {n k : Nat} {production : Production → Parse Stmt}
    (h : ∀ q, d.grammar.isRegistered q = true → ProceedsOn n k (production q)) :
    ProceedsOn n k (d.grammar.start production) := by
  obtain ⟨root, hroot, hregistered⟩ := d.exists_root
  simp only [Grammar.start, hroot]
  exact h root hregistered

/-- Every production of a dialect passes a token, or the program is wrong. -/
theorem proceedsOn_production (d : Dialect) (n : Nat) (p : Production)
    (hp : d.grammar.isRegistered p = true) : ProceedsOn (n + 1) 1 (d.grammar.production p) := by
  obtain ⟨rule, hrule⟩ := Option.isSome_iff_exists.1 hp
  -- Behind a token there is one token less left, and in front of it the rank goes down.
  have hinner : ∀ q, d.grammar.isRegistered q = true →
      ProceedsOn n 1 (d.grammar.production q) := by
    intro q hq
    cases n with
    | zero => exact .zero
    | succ n => exact d.proceedsOn_production n q hq
  have hnext : ∀ q, rule.next? = some q → ProceedsOn (n + 1) 1 (d.grammar.production q) := by
    intro q hq
    have hrank := rank_lt_of_next hrule hq
    exact d.proceedsOn_production n q (isRegistered_of_calls hrule (.inl hq))
  rw [d.production_eq_unfolded, Grammar.unfolded, hrule]
  refine proceeds_current.on.bind (k := 1) fun token => ?_
  refine (proceeds_tell _).on.bind (k := 1) fun _ => ?_
  refine rule.proceedsOn_parse hrule (fun q hq => ?_) (d.proceedsOn_start hinner) hnext
  exact hinner q (isRegistered_of_calls hrule (.inr hq))
termination_by (n, p.rank)

theorem proceeds_production (d : Dialect) {p : Production}
    (hp : d.grammar.isRegistered p = true) : (d.grammar.production p).Proceeds 1 :=
  fun s => d.proceedsOn_production s.size p hp s (Nat.le_succ _)

theorem proceeds_statement (d : Dialect) : d.grammar.statement.Proceeds 1 :=
  fun s => d.proceedsOn_start (n := s.size) (fun _ hq => (d.proceeds_production hq).on) s
    (Nat.le_refl _)

theorem proceeds_program (d : Dialect) : d.grammar.program.Proceeds 0 :=
  fun s => d.proceeds_statement.on.many s (Nat.le_refl s.size)

/-- Parsing with a dialect comes to an end.  A production calls for productions without any bound on
the depth of the calls, and when it has a rule it passes at least one token or fails because of the
program; so does every statement in a program or between braces.  A program is read as a whole, or
the program is wrong, but never is a rule or a start missing, and never are there too many calls or
rounds. -/
theorem parse_proceeds (d : Dialect) :
    (∀ p, d.grammar.production p = d.grammar.unfolded d.grammar.production p) ∧
    (∀ p s, d.grammar.isRegistered p = true → ProceedsAt 1 s (d.grammar.production p)) ∧
    (∀ s, ProceedsAt 1 s d.grammar.statement) ∧
    ∀ tokens file,
      (∃ program, (d.parse tokens file).result = .ok program) ∨
        ∃ report, (d.parse tokens file).result = .error (.fault report) ∧
          report.fault ≠ .noRootProduction ∧
          ∀ name, report.fault ≠ .unregisteredProduction name := by
  refine ⟨d.production_eq_unfolded, fun p s hp => d.proceeds_production hp s,
    d.proceeds_statement, fun tokens file => ?_⟩
  cases hresult : (d.parse tokens file).result with
  | ok program => exact .inl ⟨program, rfl⟩
  | error failure =>
    obtain ⟨report, rfl, hreport⟩ :=
      (d.proceeds_program (State.ofTokens tokens file)).ofProgram failure hresult
    exact .inr ⟨report, rfl, hreport⟩

end Dialect

end Cascade
