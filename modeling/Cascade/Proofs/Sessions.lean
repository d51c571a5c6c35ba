import Mathlib
import Cascade.Proofs.Declarations
import Cascade.Session

/-!
# Runs of a session

A session takes one operation after another, whether they succeed or fail and however the grammar is
changed in between.  Whatever it is asked for, it stays on the same row of tokens, never goes back
and never goes beyond an end mark, and it forgets no variable.

## Main definitions

* `Session.Operation` : what a session can be asked for.
* `Session.apply`, `Session.run` : a session after an operation, and after a row of operations.
* `State.Continues` : a state lies further on than another one, with all of its variables.

## Main results

* `Session.continues_apply`, `Session.continues_run` : no operation goes back or forgets a variable.
* `Session.run_keeps` : where the cursor is, and what stays the same, at any point of a run.
-/

namespace Cascade

namespace Session

/-- What a session can be asked for. -/
inductive Operation where
  | advance
  | expect (kind : TokenKind) (description : String)
  | edit (e : Edit)
  | load (d : Dialect)
  | statement
  | program
  | production (p : Production)
  | expression (p : Production)
  | scope
  | terminator
  | fold (e : Expr)
  | declare (name : String) (type : ValueType)

/-- Whether an operation is meant to change the grammar. -/
def Operation.changesGrammar : Operation → Bool
  | .edit _ | .load _ => true
  | _ => false

/-- The session after an operation, whether the operation succeeds or fails. -/
def apply (s : Session) : Operation → Session
  | .advance => (s.perform fun _ => Parse.advance).2
  | .expect kind description => (s.perform fun _ => Parse.expect kind description).2
  | .edit e => s.edit e
  | .load d => s.load d
  | .statement => (s.perform Grammar.statement).2
  | .program => (s.perform Grammar.program).2
  | .production p => (s.perform fun g => g.production p).2
  | .expression p => (s.perform fun g => g.expression p).2
  | .scope => (s.perform Grammar.scope).2
  | .terminator => (s.perform fun _ => Parse.terminator).2
  | .fold e => (s.perform fun _ => Parse.fold e).2
  | .declare name type => (s.perform fun _ => Parse.declare name type).2

/-- The session after a row of operations. -/
def run (s : Session) (operations : List Operation) : Session :=
  operations.foldl apply s

/-- The session that some operations lead to, from the first of the tokens and without any rules. -/
def after (tokens : List Token) (file : String) (operations : List Operation) : Session :=
  (ofTokens .empty tokens file).run operations

theorem after_append (tokens : List Token) (file : String) (operations more : List Operation) :
    after tokens file (operations ++ more) = (after tokens file operations).run more :=
  List.foldl_append

end Session

/-! ### What an operation does to the state -/

namespace State

/-- Whether a state lies further on than another one, with all of its variables. -/
structure Continues (s t : State) : Prop where
  reaches : s.cursor.Reaches t.cursor
  declares : ∀ name, s.symbols.Declares name → t.symbols.Declares name

variable {s t u : State}

theorem Continues.refl (s : State) : s.Continues s :=
  ⟨.refl _, fun _ => id⟩

theorem Continues.trans (h : s.Continues t) (h' : t.Continues u) : s.Continues u :=
  ⟨h.reaches.trans h'.reaches, fun name hname => h'.declares name (h.declares name hname)⟩

theorem Evolves.continues (h : s.Evolves t) : s.Continues t := by
  obtain ⟨read, hread, hinside, hentered⟩ := h
  exact ⟨⟨read, hread, hinside⟩, fun _ => hentered.declares⟩

/-- A declaration from outside may replace a variable but does not remove one. -/
theorem continues_declare (s : State) (name : String) (type : ValueType) :
    s.Continues ⟨s.cursor, s.symbols.declare name type⟩ := by
  refine ⟨.refl _, ?_⟩
  rintro other ⟨found, hfound⟩
  by_cases h : other = name
  · exact ⟨type, by rw [Symbols.lookup?_declare, if_pos h]⟩
  · exact ⟨found, by rw [Symbols.lookup?_declare, if_neg h, hfound]⟩

end State

/-- A place with no end mark in front of it does not lie beyond the first one. -/
theorem Cursor.IsAt.le_findIdx {c : Cursor} {row : List Token} {i : Nat} (h : c.IsAt row i)
    (hinside : ∀ j t, 0 ≤ j → j < i → row[j]? = some t → t.kind ≠ .eof) :
    i ≤ row.findIdx (fun t => t.kind = .eof) := by
  refine List.le_findIdx_of_not h.lt_length fun j hj => ?_
  have hlength : j < row.length := Nat.lt_trans hj h.lt_length
  exact decide_eq_false (hinside j _ (Nat.zero_le _) hj (List.getElem?_eq_getElem hlength))

namespace Session

variable {α : Type}

theorem continues_perform (s : Session) {step : Grammar → Parse α}
    (h : (step s.grammar).Keeps State.Evolves) : s.state.Continues (s.perform step).2.state :=
  (h s.state).continues

/-- No operation goes back or forgets a variable, whatever the grammar is and whether the operation
succeeds or fails. -/
theorem continues_apply (s : Session) (operation : Operation) :
    s.state.Continues (s.apply operation).state := by
  have hR := State.frame_evolves
  have hstatement := s.grammar.evolves_statement
  cases operation with
  | advance => exact s.continues_perform hR.keeps_advance
  | expect kind description => exact s.continues_perform (hR.keeps_expect kind description)
  | edit e => exact .refl _
  | load d => exact .refl _
  | statement => exact s.continues_perform hstatement
  | program => exact s.continues_perform (hR.many hstatement)
  | production p => exact s.continues_perform (s.grammar.evolves_production p)
  | expression p => exact s.continues_perform (hR.onlyExpr (s.grammar.evolves_production p))
  | scope => exact s.continues_perform (hR.scope hstatement)
  | terminator => exact s.continues_perform hR.keeps_terminator
  | fold e => exact s.continues_perform (hR.keeps_fold e)
  | declare name type => exact s.state.continues_declare name type

/-- Only the operations that are meant to change the grammar do. -/
theorem grammar_apply (s : Session) {operation : Operation}
    (h : operation.changesGrammar = false) : (s.apply operation).grammar = s.grammar := by
  cases operation with
  | edit e => cases h
  | load d => cases h
  | _ => rfl

/-! ### Runs -/

theorem continues_run (s : Session) (operations : List Operation) :
    s.state.Continues (s.run operations).state := by
  induction operations generalizing s with
  | nil => exact .refl _
  | cons operation operations ih => exact (s.continues_apply operation).trans (ih _)

theorem grammar_run (s : Session) {operations : List Operation}
    (h : ∀ operation ∈ operations, operation.changesGrammar = false) :
    (s.run operations).grammar = s.grammar := by
  induction operations generalizing s with
  | nil => rfl
  | cons operation operations ih =>
    obtain ⟨hfirst, hrest⟩ := List.forall_mem_cons.1 h
    exact (ih _ hrest).trans (s.grammar_apply hfirst)

/-- At any point of a run, a session stands on the tokens that it has begun with, with an end mark
behind them, and not beyond the first end mark, so there is a current token.  At any later point it
stands there or further on, with all of the variables, and with the same grammar if nothing was
asked for that is meant to change it. -/
theorem run_keeps (tokens : List Token) (file : String) (operations more : List Operation) :
    (Cursor.close tokens file).getLast?.map Token.kind = some .eof ∧
    tokens <+: Cursor.close tokens file ∧
    ∃ i j, (after tokens file operations).state.cursor.IsAt (Cursor.close tokens file) i ∧
      (after tokens file (operations ++ more)).state.cursor.IsAt (Cursor.close tokens file) j ∧
      i ≤ j ∧ j ≤ (Cursor.close tokens file).findIdx (fun t => t.kind = .eof) ∧
      (Cursor.close tokens file)[i]? = some (after tokens file operations).current ∧
      (∀ name, (after tokens file operations).state.symbols.Declares name →
        (after tokens file (operations ++ more)).state.symbols.Declares name) ∧
      ((∀ operation ∈ more, operation.changesGrammar = false) →
        (after tokens file (operations ++ more)).grammar =
          (after tokens file operations).grammar) := by
  rw [after_append]
  have hbefore :
      (Cursor.ofTokens tokens file).Reaches (after tokens file operations).state.cursor :=
    ((ofTokens .empty tokens file).continues_run operations).reaches
  have hafter := (after tokens file operations).continues_run more
  have hstart := Cursor.isAt_ofTokens tokens file
  obtain ⟨i, -, hi, -⟩ := hstart.exists_of_reaches hbefore
  obtain ⟨j, hij, hj, -⟩ := hi.exists_of_reaches hafter.reaches
  obtain ⟨k, -, hk, hinside⟩ := hstart.exists_of_reaches (hbefore.trans hafter.reaches)
  obtain rfl := hj.unique hk
  exact ⟨Cursor.getLast?_close tokens file, Cursor.prefix_close tokens file, i, j, hi, hj, hij,
    hj.le_findIdx hinside, hi.getElem?, hafter.declares, fun h => grammar_run _ h⟩

/-- The tokens of a declaration, with an end mark behind it and one more token behind the end
mark. -/
def haltedTokens : List Token :=
  [.bare .kwLet "let", .bare .identifier "x", .bare .colon ":", .bare .typeName "bool",
   .bare .assign "=", .bare .bool "true", .bare .semicolon ";", .bare .eof "EOF",
   .bare .kwLet "let"]

/-- A grammar in which numbers stand for declarations and their values are truth values only. -/
def rewiring : List Operation :=
  [.edit (.register .number .declaration true), .edit (.register .binary .boolean false),
   .statement]

set_option maxRecDepth 2000 in
/-- With rules for the wrong productions a variable is declared all the same, and nothing that is
asked for afterwards leads beyond the end mark in the middle. -/
theorem run_keeps_rewired :
    (after haltedTokens "f"
        (rewiring ++ [.advance, .statement, .expect .kwLet "let", .program])).state.cursor.IsAt
      (Cursor.close haltedTokens "f") 7 ∧
    (after haltedTokens "f"
      (rewiring ++ [.advance, .statement, .expect .kwLet "let", .program])).state.symbols.Declares
        "x" ∧
    (after haltedTokens "f"
        (rewiring ++ [.advance, .statement, .expect .kwLet "let", .program])).grammar =
      (after haltedTokens "f" rewiring).grammar := by
  have hat : (after haltedTokens "f" rewiring).state.cursor.IsAt
      (Cursor.close haltedTokens "f") 7 := by
    cbv
  have hdeclared : (after haltedTokens "f" rewiring).state.symbols.lookup? "x" = some .bool := by
    cbv
  have hfirst : (Cursor.close haltedTokens "f").findIdx (fun t => t.kind = .eof) = 7 := by
    decide
  obtain ⟨-, -, i, j, hi, hj, hij, hle, -, hnames, hgrammar⟩ := run_keeps haltedTokens "f" rewiring
    [.advance, .statement, .expect .kwLet "let", .program]
  obtain rfl := hi.unique hat
  obtain rfl : j = 7 := Nat.le_antisymm (hfirst ▸ hle) hij
  exact ⟨hj, hnames "x" ⟨_, hdeclared⟩, hgrammar (by decide)⟩

end Session

end Cascade
