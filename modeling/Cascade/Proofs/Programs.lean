import Mathlib.Tactic.Common
import Cascade.Proofs.Expressions

/-!
# Parsing is elaboration

In the full dialect the words of a written program are read as the elaboration of the program: the
parser gives the same statements, or the same fault, and leaves the same variables.  The twenty
productions of the cascade, which fold, check and declare while they read, do what one walk over the
written program does.

## Main definitions

* `Written.Stmt.Realized`, `BodyRealized`, `Written.Branches.Realized` : the words of a part of a
  program are read as its elaboration.
* `Written.elaborate` : the elaboration of a program.

## Main results

* `bodyRealized_cons` : rounds are never short, since every statement reads a token.
* `Written.Stmt.realized` : the words of every statement are read as its elaboration.
* `Dialect.parse_written` : parsing the words of a program is elaborating the program.
-/

namespace Cascade

open Written Parse Dialect

/-! ### Rows of statements -/

/-- Whether a statement can begin with a token of this kind. -/
def opensStmt (kind : TokenKind) : Bool :=
  opensExpr kind ||
    kind ∈ [.kwLet, .kwIf, .kwFor, .kwWhile, .kwLoop, .kwBreak, .kwContinue]

section Statements

variable {c c' d : Cursor}

theorem opensStmt_of_reads {stmt : Written.Stmt} (h : c.Reads stmt.spell c') :
    opensStmt c.here.kind = true := by
  cases stmt with
  | expr value =>
    obtain ⟨d, hvalue, -⟩ := Cursor.reads_append.1 h
    rw [opensStmt, opensExpr_of_reads hvalue, Bool.true_or]
  | bind binding => cases binding <;> rw [h.1.1] <;> rfl
  | jump target => cases target <;> rw [h.1.1] <;> rfl
  | loop _ _ | whileLoop _ _ _ | forLoop _ _ _ _ _ _ | conditional _ _ _ => rw [h.1.1]; rfl

theorem ne_of_opensStmt {kind other : TokenKind} (h : opensStmt kind = true)
    (hother : opensStmt other = false) : kind ≠ other := by
  rintro rfl
  rw [hother] at h
  cases h

theorem Written.Stmt.length_spell_pos (stmt : Written.Stmt) : 0 < stmt.spell.length := by
  cases stmt with
  | bind binding => cases binding <;> simp [spell, Binding.spell]
  | _ => simp [spell]

/-- Whether the words of a statement are read as its elaboration, unless they could go on. -/
def Written.Stmt.Realized (stmt : Written.Stmt) : Prop :=
  ∀ ⦃c c' : Cursor⦄, c.Reads stmt.spell c' → c'.here.kind ≠ .kwOr → c'.here.kind ≠ .kwElse →
    full.grammar.statement.Realizes stmt.elaborate c c'

/-- Whether a row of statements is read as its elaboration up to a token to stop at, which is a
closing brace or an end mark. -/
def BodyRealized (body : List Written.Stmt) : Prop :=
  ∀ ⦃stop : TokenKind → Bool⦄ ⦃fuel : Nat⦄ ⦃c c' : Cursor⦄,
    (∀ kind, stop kind = true → kind = .closeCurly ∨ kind = .eof) →
    c.Reads (spellBody body) c' → stop c'.here.kind = true → c.remaining.length ≤ fuel →
      (manyWithin stop full.grammar.statement fuel).Realizes (elaborateBody body) c c'

/-- There is always a round left, since there is always a token left. -/
theorem exists_fuel {fuel : Nat} (h : c.remaining.length ≤ fuel) : ∃ n, fuel = n + 1 :=
  Nat.exists_eq_add_one_of_ne_zero (Nat.ne_zero_of_lt h)

theorem bodyRealized_nil : BodyRealized [] := by
  intro stop fuel c c' _ hreads hend hfuel
  obtain rfl := hreads
  obtain ⟨fuel, rfl⟩ := exists_fuel hfuel
  refine realizes_kind.step ?_
  rw [if_pos hend]
  exact realizes_pure _

/-- What follows a statement in a row is another statement or the token to stop at, and neither can
be taken for a part of the statement. -/
theorem kind_of_reads_body {body : List Written.Stmt} {stop : TokenKind → Bool}
    (hstop : ∀ kind, stop kind = true → kind = .closeCurly ∨ kind = .eof)
    (hreads : c.Reads (spellBody body) c') (hend : stop c'.here.kind = true) :
    c.here.kind ≠ .kwOr ∧ c.here.kind ≠ .kwElse := by
  cases body with
  | nil =>
    obtain rfl := hreads
    rcases hstop _ hend with hkind | hkind <;> rw [hkind] <;> decide
  | cons stmt body =>
    obtain ⟨d, hstmt, -⟩ := Cursor.reads_append.1 hreads
    have hopens := opensStmt_of_reads hstmt
    exact ⟨ne_of_opensStmt hopens rfl, ne_of_opensStmt hopens rfl⟩

theorem bodyRealized_cons {stmt : Written.Stmt} {body : List Written.Stmt} (hstmt : stmt.Realized)
    (hbody : BodyRealized body) : BodyRealized (stmt :: body) := by
  intro stop fuel c c' hstop hreads hend hfuel
  obtain ⟨d, hreadsStmt, hreadsBody⟩ := Cursor.reads_append.1 hreads
  obtain ⟨fuel, rfl⟩ := exists_fuel hfuel
  have hgo : ¬stop c.here.kind = true := by
    intro hkind
    have hopens := opensStmt_of_reads hreadsStmt
    exact (hstop _ hkind).elim (ne_of_opensStmt hopens rfl) (ne_of_opensStmt hopens rfl)
  have hless : d.remaining.length ≤ fuel := by
    have hlength := hreadsStmt.length_remaining
    have hpos := stmt.length_spell_pos
    omega
  obtain ⟨hor, helse⟩ := kind_of_reads_body hstop hreadsBody hend
  refine realizes_kind.step ?_
  rw [if_neg hgo]
  refine (hstmt hreadsStmt hor helse).bind fun stmt => ?_
  exact (hbody hstop hreadsBody hend hless).bind fun body => realizes_pure _

/-! ### Bodies -/

/-- There are enough rounds for a row of statements, since there are no more of them than tokens. -/
theorem BodyRealized.many {body : List Written.Stmt} (h : BodyRealized body)
    {stop : TokenKind → Bool} (hstop : ∀ kind, stop kind = true → kind = .closeCurly ∨ kind = .eof)
    (hreads : c.Reads (spellBody body) c') (hend : stop c'.here.kind = true) :
    (Parse.many stop full.grammar.statement).Realizes (elaborateBody body) c c' :=
  Realizes.withTokensLeft (h hstop hreads hend (Nat.le_refl _))

/-- A row of statements in braces is a body. -/
theorem BodyRealized.scope {body : List Written.Stmt} (h : BodyRealized body)
    (hreads : c.Reads (braced (spellBody body)) c') :
    (scope full.grammar.statement).Realizes (elaborateBody body) c c' := by
  obtain ⟨⟨hopen, -⟩, hrest⟩ := Cursor.reads_cons.1 hreads
  obtain ⟨d, hbody, ⟨hclose, -⟩, rfl⟩ := Cursor.reads_append.1 hrest
  have hstop : ∀ kind, endsScope kind = true → kind = .closeCurly ∨ kind = .eof := by
    intro kind hkind
    simpa [endsScope] using hkind
  have hend : endsScope d.here.kind = true := by
    rw [hclose]
    rfl
  refine (realizes_expect hopen _).step ((h.many hstop hbody hend).trail fun body => ?_)
  exact (realizes_expect hclose _).step (realizes_pure _)

/-- The body of a loop is followed by its fallback, if there is one. -/
theorem BodyRealized.loopBody {body : List Written.Stmt} {fallback : Option (List Written.Stmt)}
    (h : BodyRealized body) (hfallback : ∀ last, fallback = some last → BodyRealized last)
    (hreads : c.Reads (braced (spellBody body) ++ spellFallback fallback) c')
    (hor : c'.here.kind ≠ .kwOr) :
    (loopBody full.grammar.statement).Realizes (do
      let body ← elaborateBody body
      let fallback ← elaborateFallback fallback
      return (body, fallback)) c c' := by
  obtain ⟨d, hbody, hrest⟩ := Cursor.reads_append.1 hreads
  refine (h.scope hbody).bind fun body => realizes_kind.step ?_
  cases fallback with
  | none =>
    obtain rfl := hrest
    rw [if_neg hor]
    exact realizes_pure _
  | some last =>
    obtain ⟨⟨hkind, -⟩, hlast⟩ := Cursor.reads_cons.1 hrest
    rw [if_pos hkind, elaborateFallback, bind_assoc]
    refine realizes_advance.step ?_
    exact ((hfallback last rfl).scope hlast).bind fun last => realizes_pure _

/-- A loop is made from its body and its fallback. -/
theorem BodyRealized.loopStmt (make : List Cascade.Stmt → Option (List Cascade.Stmt) → Cascade.Stmt)
    {body : List Written.Stmt} {fallback : Option (List Written.Stmt)}
    (h : BodyRealized body) (hfallback : ∀ last, fallback = some last → BodyRealized last)
    (hreads : c.Reads (braced (spellBody body) ++ spellFallback fallback) c')
    (hor : c'.here.kind ≠ .kwOr) :
    (Parse.loopBody full.grammar.statement >>= fun parts =>
      pure (make parts.1 parts.2)).Realizes (do
        let body ← elaborateBody body
        let fallback ← elaborateFallback fallback
        return make body fallback) c c' := by
  have hmake := (h.loopBody hfallback hreads hor).bind fun parts =>
    realizes_pure (make parts.1 parts.2)
  simpa only [bind_assoc, pure_bind] using hmake

/-! ### Branches -/

/-- Whether the branches behind the first one are read as their elaboration, each linked to the one
before it. -/
def Written.Branches.Realized (rest : Branches) : Prop :=
  ∀ ⦃fuel : Nat⦄ ⦃chain : Chain⦄ ⦃index : Nat⦄ ⦃c c' : Cursor⦄, chain.length = index + 1 →
    c.Reads rest.spell c' → c'.here.kind ≠ .kwElse → c.remaining.length ≤ fuel →
      (elseBranches full.grammar.production full.grammar.statement fuel chain).Realizes
        (do return chain ++ (← rest.elaborate index)) c c'

theorem push_eq_append {chain : Chain} {index : Nat} (hchain : chain.length = index + 1)
    (body : List Cascade.Stmt) (condition : Option Cascade.Expr) :
    chain.push body condition = chain ++ [.mk condition (some index) body] := by
  simp [Chain.push, hchain]

theorem branchesRealized_done : Branches.Realized .done := by
  intro fuel chain index c c' _ hreads helse hfuel
  obtain rfl := hreads
  obtain ⟨fuel, rfl⟩ := exists_fuel hfuel
  refine realizes_kind.step ?_
  rw [if_pos helse, Branches.elaborate]
  simpa only [pure_bind, List.append_nil] using realizes_pure chain

theorem branchesRealized_last {body : List Written.Stmt} (hbody : BodyRealized body) :
    Branches.Realized (.last body) := by
  intro fuel chain index c c' hchain hreads helse hfuel
  obtain ⟨⟨hkind, -⟩, hlast⟩ := Cursor.reads_cons.1 hreads
  obtain ⟨fuel, rfl⟩ := exists_fuel hfuel
  have hopen : c.advance.here.kind ≠ .kwIf := ne_of_eq_of_ne hlast.1.1 (by decide)
  refine realizes_kind.step ?_
  rw [if_neg (not_not.2 hkind)]
  refine realizes_advance.step (realizes_kind.step ?_)
  rw [if_pos hopen, Branches.elaborate, bind_assoc]
  refine (hbody.scope hlast).bind fun body => ?_
  rw [push_eq_append hchain, pure_bind]
  exact realizes_pure _

theorem branchesRealized_next {condition : Written.Expr} {body : List Written.Stmt}
    {rest : Branches} (hbody : BodyRealized body) (hrest : rest.Realized) :
    Branches.Realized (.next condition body rest) := by
  intro fuel chain index c c' hchain hreads helse hfuel
  obtain ⟨fuel, rfl⟩ := exists_fuel hfuel
  have hlength := hreads.length_remaining
  simp only [Branches.spell, Cursor.reads_cons, Cursor.reads_append] at hreads
  obtain ⟨⟨hkind, -⟩, ⟨hif, -⟩, d, hcondition, e, hreadsBody, hreadsRest⟩ := hreads
  have hopen : d.here.kind = .openCurly := hreadsBody.1.1
  have hless : e.remaining.length ≤ fuel := by
    have hlengthRest := hreadsRest.length_remaining
    simp only [Branches.spell, List.length_cons, List.length_append] at hlength
    omega
  refine realizes_kind.step ?_
  rw [if_neg (not_not.2 hkind)]
  refine realizes_advance.step (realizes_kind.step ?_)
  rw [if_neg (not_not.2 hif), Branches.elaborate]
  simp only [bind_assoc, pure_bind]
  refine realizes_advance.step ?_
  refine (realizes_condition condition hcondition (ne_of_eq_of_ne hopen (by decide))).bind
    fun guard => (hbody.scope hreadsBody).bind fun body => ?_
  have hchain' : (chain ++ [Branch.mk (some guard) (some index) body]).length = index + 1 + 1 := by
    simp [hchain]
  rw [push_eq_append hchain]
  simpa only [List.append_assoc, List.singleton_append] using
    hrest hchain' hreadsRest helse hless

/-! ### Statements -/

theorem realized_expr (value : Written.Expr) : Stmt.Realized (.expr value) := by
  intro c c' hreads _ _
  obtain ⟨d, hvalue, ⟨hsemicolon, -⟩, rfl⟩ := Cursor.reads_append.1 hreads
  refine realizes_statement rfl (reader_of_opensExpr (opensExpr_of_reads hvalue)) ?_
  refine realizes_assignment_of_binary ?_ ?_ (realizes_semicolon hsemicolon)
  · exact value.realized hvalue (ne_of_eq_of_ne hsemicolon (by decide))
  · exact ne_of_eq_of_ne hsemicolon (by decide)

theorem realized_bind (binding : Binding) : Stmt.Realized (.bind binding) := by
  intro c c' hreads _ _
  have hreader : full.reader c.here.kind 6 .conditional = .declaration := by
    cases binding <;> rw [hreads.1.1] <;> rfl
  rw [statement_full]
  exact realizes_reader 6 hreader (realizes_binding binding hreads)

theorem realized_jump (target : Jump) : Stmt.Realized (.jump target) := by
  intro c c' hreads _ _
  obtain ⟨⟨hkind, -⟩, ⟨hsemicolon, -⟩, rfl⟩ := hreads
  have hjump : (jumpRule full.grammar.production target).Realizes
      (pure (.expr (.jump target))) c c.advance.advance := by
    refine realizes_kind.step ?_
    rw [if_neg (not_not.2 (by rw [hkind]; cases target <;> rfl))]
    exact realizes_advance.step ((realizes_expect hsemicolon _).step (realizes_pure _))
  cases target with
  | exit => exact realizes_statement hkind rfl (realizes_production (p := .breakJump) rfl hjump)
  | next => exact realizes_statement hkind rfl (realizes_production (p := .continueJump) rfl hjump)

section Loops

variable {body : List Written.Stmt} {fallback : Option (List Written.Stmt)}
variable (hbody : BodyRealized body)
variable (hfallback : ∀ last, fallback = some last → BodyRealized last)

include hbody hfallback

theorem realized_loop : Stmt.Realized (.loop body fallback) := by
  intro c c' hreads hor _
  obtain ⟨⟨hkind, -⟩, hparts⟩ := Cursor.reads_cons.1 hreads
  refine realizes_statement hkind rfl (realizes_production rfl (realizes_kind.step ?_))
  rw [if_neg (not_not.2 hkind)]
  exact realizes_advance.step
    (hbody.loopStmt (fun body fallback => .expr (.loop body fallback)) hfallback hparts hor)

theorem realized_whileLoop (condition : Written.Expr) :
    Stmt.Realized (.whileLoop condition body fallback) := by
  intro c c' hreads hor _
  obtain ⟨⟨hkind, -⟩, hrest⟩ := Cursor.reads_cons.1 hreads
  obtain ⟨d, hcondition, hparts⟩ := Cursor.reads_append.1 hrest
  have hopen : d.here.kind = .openCurly := hparts.1.1
  refine realizes_statement hkind rfl (realizes_production rfl (realizes_kind.step ?_))
  rw [if_neg (not_not.2 hkind)]
  refine realizes_advance.step ?_
  refine (realizes_condition condition hcondition (ne_of_eq_of_ne hopen (by decide))).bind
    fun guard => ?_
  exact hbody.loopStmt (fun body fallback => .expr (.whileLoop guard body fallback))
    hfallback hparts hor

theorem realized_forLoop (init : Binding) (condition : Written.Expr) (name : String)
    (update : Written.Expr) :
    Stmt.Realized (.forLoop init condition name update body fallback) := by
  intro c c' hreads hor _
  obtain ⟨⟨hkind, -⟩, ⟨hopen, -⟩, hrest⟩ := hreads
  obtain ⟨d, hinit, hrest⟩ := Cursor.reads_append.1 hrest
  obtain ⟨e, hcondition, ⟨hsemicolon, -⟩, hrest⟩ := Cursor.reads_append.1 hrest
  obtain ⟨f, hupdate, ⟨hclose, -⟩, hparts⟩ := Cursor.reads_append.1 hrest
  refine realizes_statement hkind rfl (realizes_production rfl (realizes_kind.step ?_))
  rw [if_neg (not_not.2 hkind)]
  refine realizes_advance.step ((realizes_expect hopen _).step ?_)
  refine (realizes_binding init hinit).bind fun init => ?_
  refine (realizes_condition condition hcondition (ne_of_eq_of_ne hsemicolon (by decide))).bind
    fun guard => (realizes_expect hsemicolon _).step ?_
  refine (realizes_assign hupdate (ne_of_eq_of_ne hclose (by decide))
    (realizes_closeParen hclose)).bind fun update => (realizes_expect hclose _).step ?_
  exact hbody.loopStmt (fun body fallback => .expr (.forLoop init guard update body fallback))
    hfallback hparts hor

end Loops

theorem realized_conditional {body : List Written.Stmt} {rest : Branches} (condition : Written.Expr)
    (hbody : BodyRealized body) (hrest : rest.Realized) :
    Stmt.Realized (.conditional condition body rest) := by
  intro c c' hreads _ helse
  obtain ⟨⟨hkind, -⟩, hreads⟩ := Cursor.reads_cons.1 hreads
  obtain ⟨d, hcondition, hreads⟩ := Cursor.reads_append.1 hreads
  obtain ⟨e, hreadsBody, hreadsRest⟩ := Cursor.reads_append.1 hreads
  have hopen : d.here.kind = .openCurly := hreadsBody.1.1
  refine realizes_statement hkind rfl (realizes_production rfl (realizes_kind.step ?_))
  rw [if_neg (not_not.2 hkind), Stmt.elaborate]
  refine realizes_advance.step ?_
  refine (realizes_condition condition hcondition (ne_of_eq_of_ne hopen (by decide))).bind
    fun guard => (hbody.scope hreadsBody).bind fun body => ?_
  have hfirst : Chain.push [] body (some guard) = [.mk (some guard) none body] := rfl
  have hchain : (withTokensLeft fun fuel => elseBranches full.grammar.production
      full.grammar.statement fuel (Chain.push [] body (some guard))).Realizes
      (do return Chain.push [] body (some guard) ++ (← rest.elaborate 0)) e c' :=
    Realizes.withTokensLeft (hrest (by rw [hfirst]; rfl) hreadsRest helse (Nat.le_refl _))
  have hstmt := hchain.bind fun chain => realizes_pure (Stmt.expr (.conditional chain))
  simpa only [bind_assoc, pure_bind, hfirst, List.singleton_append] using hstmt

/-! ### Programs -/

-- The recursion is over the written program.  Each part is known to be read on its own, whatever is
-- declared and wherever it stands, so the lemmas above put the parts together.
mutual

/-- The words of every statement are read as its elaboration. -/
theorem Written.Stmt.realized : ∀ stmt : Written.Stmt, stmt.Realized
  | .expr value => realized_expr value
  | .bind binding => realized_bind binding
  | .loop body fallback => realized_loop (bodyRealized body) (fallbackRealized fallback)
  | .whileLoop condition body fallback =>
    realized_whileLoop (bodyRealized body) (fallbackRealized fallback) condition
  | .forLoop init condition name update body fallback =>
    realized_forLoop (bodyRealized body) (fallbackRealized fallback) init condition name update
  | .jump target => realized_jump target
  | .conditional condition body rest =>
    realized_conditional condition (bodyRealized body) rest.realized

theorem bodyRealized : ∀ body : List Written.Stmt, BodyRealized body
  | [] => bodyRealized_nil
  | stmt :: body => bodyRealized_cons stmt.realized (bodyRealized body)

theorem fallbackRealized : ∀ (fallback : Option (List Written.Stmt)) (last : List Written.Stmt),
    fallback = some last → BodyRealized last
  | none, _, h => absurd h (by simp)
  | some body, last, h => Option.some.inj h ▸ bodyRealized body

theorem Written.Branches.realized : ∀ rest : Branches, rest.Realized
  | .done => branchesRealized_done
  | .last body => branchesRealized_last (bodyRealized body)
  | .next _ body rest => branchesRealized_next (bodyRealized body) rest.realized

end

end Statements

/-! ### Whole programs -/

/-- The fault of a failure. -/
def Failure.fault? : Failure → Option Fault
  | .fault report => some report.fault
  | .exhausted => none

/-- What a program elaborates to when nothing is declared yet, and the variables that it leaves. -/
def Written.elaborate (program : List Written.Stmt) : Except Fault (List Cascade.Stmt) × Symbols :=
  (elaborateBody program).run.run Symbols.empty

/-- The tokens of a program at given places, with an end mark behind them if it has a place. -/
def Written.tokens (place : Nat → Span) (ending : Option Span) (program : List Written.Stmt) :
    List Token :=
  lay place (spellBody program) ++ (ending.map Token.endMark).toList

/-- There is no end mark among the words, so the parser adds one if there is none behind them. -/
theorem close_lay (place : Nat → Span) (words : List Word) (ending : Option Span) (file : String) :
    ∃ span, Cursor.close (lay place words ++ (ending.map Token.endMark).toList) file =
      lay place words ++ [Token.endMark span] := by
  cases ending with
  | some span =>
    refine ⟨span, if_pos ?_⟩
    simp [Token.endMark]
  | none =>
    have hlast : (lay place words).getLast?.map Token.kind ≠ some .eof := by
      intro h
      obtain ⟨token, htoken, hkind⟩ := Option.map_eq_some_iff.1 h
      obtain ⟨i, hi, rfl⟩ := List.mem_mapIdx.1 (List.mem_of_getLast? htoken)
      exact words[i].inside hkind
    rw [Option.map_none, Option.toList_none, List.append_nil, Cursor.close, if_neg hlast]
    exact ⟨_, rfl⟩

/-- The words of a program are read from the first of its tokens up to the end mark. -/
theorem reads_tokens (place : Nat → Span) (ending : Option Span) (program : List Written.Stmt)
    (file : String) :
    ∃ c', (Cursor.ofTokens (tokens place ending program) file).Reads (spellBody program) c' ∧
      c'.here.kind = .eof := by
  obtain ⟨span, hclose⟩ := close_lay place (spellBody program) ending file
  have hremaining : (Cursor.ofTokens (tokens place ending program) file).remaining =
      lay place (spellBody program) ++ [Token.endMark span] := by
    rw [Cursor.remaining_ofTokens, tokens, hclose]
  exact ⟨⟨Token.endMark span, [], rfl⟩, Cursor.reads_of_remaining hremaining, rfl⟩

/-- Parsing the tokens of a written program, wherever they stand, is elaborating the program: it
gives the same statements or the same fault, and in both cases it leaves the same variables. -/
theorem Dialect.parse_written (program : List Written.Stmt) (place : Nat → Span)
    (ending : Option Span) (file : String) :
    (full.parse (tokens place ending program) file).result.mapError Failure.fault? =
        (elaborate program).1.mapError some ∧
      (full.parse (tokens place ending program) file).state.symbols = (elaborate program).2 := by
  obtain ⟨c', hreads, heof⟩ := reads_tokens place ending program file
  have hprogram : full.grammar.program.Realizes (elaborateBody program)
      (Cursor.ofTokens (tokens place ending program) file) c' := by
    refine (bodyRealized program).many ?_ hreads (decide_eq_true heof)
    intro kind hkind
    exact .inr (of_decide_eq_true hkind)
  have hends := hprogram Symbols.empty
  change full.grammar.program.EndsAs (State.ofTokens (tokens place ending program) file) c'
    (elaborate program) at hends
  unfold Dialect.parse
  match h : elaborate program with
  | (.ok stmts, symbols) =>
    rw [h] at hends
    obtain ⟨hresult, hstate⟩ := hends
    rw [hresult, hstate]
    exact ⟨rfl, rfl⟩
  | (.error fault, symbols) =>
    rw [h] at hends
    obtain ⟨⟨q, hresult⟩, hsymbols⟩ := hends
    rw [hresult, hsymbols]
    exact ⟨rfl, rfl⟩

end Cascade
