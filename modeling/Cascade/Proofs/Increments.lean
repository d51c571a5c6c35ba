import Mathlib
import Cascade.Proofs.Lockstep
import Cascade.Proofs.Progress

/-!
# Programs in parts

A program can be read in parts, each with the variables that the parts before it have declared.  A
statement that ends in front of the end mark ends in the same way when something else follows,
unless that is a fallback or another branch, so the statements of the first part are read again when
both parts are read at once; and what is left is read like a program of its own.

## Main definitions

* `Dialect.parseWith` : parsing with some variables declared already.

## Main results

* `Parse.Mirrors.eq_of_same` : a step is not changed by the bounds on its calls and rounds.
* `Dialect.program_of_gives` : a program that begins with a statement goes on as a program.
* `Dialect.givesAll_of_along` : the statements of a part are read again when more follows.
* `Dialect.parse_append` : two parts are read at once like one after the other.
-/

namespace Cascade

namespace Parse

variable {α β : Type}

/-- Steps that mirror each other give the same in every state in which they have calls and rounds
enough. -/
theorem Mirrors.eq_of_same {p q : Parse α} (h : Mirrors .same False Eq p q) {s : State}
    (hp : (p.run s).result ≠ .error .exhausted) (hq : (q.run s).result ≠ .error .exhausted) :
    (q.run s).result = (p.run s).result ∧ (q.run s).state = (p.run s).state := by
  obtain ⟨read, hread, -⟩ := h.forward s
  rcases h.mirror s _ _ ⟨read, read, hread, hread, List.forall₂_refl _⟩ (.inl rfl) with
    hcut | hcut | ⟨halike, hstate⟩
  · exact absurd hcut hp
  · exact absurd hcut hq
  · exact ⟨halike.eq_of_same, hstate⟩

/-- What is done with the value of a step changes nothing else. -/
theorem run_bind_pure (p : Parse α) (f : α → β) (s : State) :
    ((p >>= fun a => pure (f a)).run s).result = (p.run s).result.map f ∧
      ((p >>= fun a => pure (f a)).run s).state = (p.run s).state := by
  cases hresult : (p.run s).result with
  | error failure =>
    rw [run_bind_of_error hresult]
    exact ⟨rfl, rfl⟩
  | ok a =>
    rw [run_bind_of_ok hresult]
    exact ⟨rfl, rfl⟩

/-- A round that succeeds leaves the others to be done where it has stopped. -/
theorem run_manyWithin_succ {stop : TokenKind → Bool} {step : Parse α} {s t : State} {a : α}
    (hstop : ¬stop s.cursor.here.kind = true) (h : step.Gives s a t) (fuel : Nat) :
    ((manyWithin stop step (fuel + 1)).run s).result =
        ((manyWithin stop step fuel).run t).result.map (a :: ·) ∧
      ((manyWithin stop step (fuel + 1)).run s).state =
        ((manyWithin stop step fuel).run t).state := by
  obtain ⟨hresult, rfl⟩ := h
  rw [manyWithin, run_bind_of_ok (congrArg Outcome.result (run_kind s)), run_kind, if_neg hstop,
    run_bind_of_ok hresult]
  exact run_bind_pure _ _ _

end Parse

namespace Dialect

open Parse

variable {s t : State}

/-! ### Programs from the first statement on -/

/-- Nothing is left of a program in front of an end mark. -/
theorem program_of_eof (d : Dialect) (heof : s.cursor.here.kind = .eof) :
    d.grammar.program.Gives s [] s := by
  change (manyWithin _ _ (s.cursor.ahead.length + 1)).Gives s [] s
  refine gives_bind.2 ⟨_, s, gives_kind.2 ⟨rfl, rfl⟩, ?_⟩
  rw [if_pos (by simpa using heof)]
  exact gives_pure.2 ⟨rfl, rfl⟩

/-- As many rounds as there are tokens left are enough for a program, and more change nothing. -/
theorem program_of_rounds (d : Dialect) {rounds : Nat} (h : s.size ≤ rounds) :
    (d.grammar.program.run s).result =
        ((manyWithin (fun kind => kind = .eof) d.grammar.statement rounds).run s).result ∧
      (d.grammar.program.run s).state =
        ((manyWithin (fun kind => kind = .eof) d.grammar.statement rounds).run s).state :=
  (Mirrors.manyWithin d.mirrors_statement rounds s.size).eq_of_same
    (d.proceeds_statement.on.manyWithin h s (Nat.le_refl _)).not_exhausted
    (d.proceeds_program s).not_exhausted

/-- A program that begins with a statement goes on as a program. -/
theorem program_of_gives (d : Dialect) {stmt : Stmt} (h : d.grammar.statement.Gives s stmt t) :
    (d.grammar.program.run s).result = (d.grammar.program.run t).result.map (stmt :: ·) ∧
      (d.grammar.program.run s).state = (d.grammar.program.run t).state := by
  have hcloses : Closes .same Eq d.grammar.statement d.grammar.statement := d.closes_statement
  have heof : s.cursor.here.kind ≠ .eof := hcloses.needsToken s stmt t h
  have hsize : t.size ≤ s.cursor.ahead.length :=
    Nat.le_of_succ_le_succ ((d.proceeds_statement s).passes stmt t h).size_add_le
  obtain ⟨hresult, hstate⟩ := d.program_of_rounds hsize
  rw [hresult, hstate]
  exact run_manyWithin_succ (by simpa using heof) h _

/-- A program that begins with some statements goes on as a program. -/
theorem program_of_givesAll (d : Dialect) {stmts : List Stmt}
    (h : d.grammar.statement.GivesAll s stmts t) :
    (d.grammar.program.run s).result = (d.grammar.program.run t).result.map (stmts ++ ·) ∧
      (d.grammar.program.run s).state = (d.grammar.program.run t).state := by
  induction h with
  | nil s =>
    refine ⟨?_, rfl⟩
    cases (d.grammar.program.run s).result <;> rfl
  | @cons s t u stmt stmts first rest ih =>
    obtain ⟨hresult, hstate⟩ := d.program_of_gives first
    refine ⟨?_, hstate.trans ih.2⟩
    rw [hresult, ih.1]
    cases (d.grammar.program.run u).result <;> rfl

/-! ### Statements in front of something else -/

theorem reaches_of_givesAll (d : Dialect) {stmts : List Stmt}
    (h : d.grammar.statement.GivesAll s stmts t) : s.cursor.Reaches t.cursor := by
  have hmirrors : Mirrors .same False Eq d.grammar.statement d.grammar.statement :=
    d.mirrors_statement
  induction h with
  | nil s => exact .refl _
  | @cons s t u stmt stmts first rest ih =>
    obtain ⟨-, rfl⟩ := first
    exact (hmirrors.forward s).trans ih

/-- Statements that end in front of an end mark are read again where the same tokens are followed by
something else, unless that carries on the last of them. -/
theorem givesAll_of_along (d : Dialect) {stmts : List Stmt}
    (h : d.grammar.statement.GivesAll s stmts t) (heof : t.cursor.here.kind = .eof)
    {c' d' : Cursor} (halong : Likeness.same.Along s.cursor t.cursor c' d')
    (hnext : d'.here.kind ≠ .kwElse ∧ d'.here.kind ≠ .kwOr) :
    d.grammar.statement.GivesAll ⟨c', s.symbols⟩ stmts ⟨d', t.symbols⟩ := by
  have hcloses : Closes .same Eq d.grammar.statement d.grammar.statement := d.closes_statement
  induction h generalizing c' with
  | nil s =>
    obtain rfl := halong.eq_of_stays
    exact .nil _
  | @cons s t u stmt stmts first rest ih =>
    obtain ⟨hresult, rfl⟩ := first
    obtain ⟨t', halong₁, halong₂⟩ :=
      halong.split (hcloses.mirrors.forward s) (d.reaches_of_givesAll rest)
    have hmeets : Likeness.same.Meets
        (True ∧ ∃ stmt, (d.grammar.statement.run s).result = .ok stmt)
        (d.grammar.statement.run s).state.cursor.here t'.here :=
      halong₂.meets (.inr ⟨trivial, heof, hnext⟩) fun _ _ _ => ⟨trivial, stmt, hresult⟩
    rcases hcloses.mirrors.mirror s c' t' halong₁ hmeets with hcut | hcut | ⟨halike, hstate⟩
    · rw [hresult] at hcut
      cases hcut
    · exact absurd hcut (d.proceeds_statement _).not_exhausted
    · exact .cons ⟨halike.eq_of_same.trans hresult, hstate⟩ (ih heof halong₂)

/-! ### Parts of a program -/

/-- Parses tokens with a dialect, where some variables are declared already. -/
def parseWith (d : Dialect) (symbols : Symbols) (tokens : List Token) (file : String) :
    Outcome (List Stmt) :=
  d.grammar.program.run ⟨Cursor.ofTokens tokens file, symbols⟩

/-- Reading two parts at once, where the first part is a program and has no end mark, and the second
one does not begin with what carries on a statement, is reading the first part and then, with the
variables that it has declared, the second one. -/
theorem parse_append (d : Dialect) (a b : List Token) (file file' : String) (stmts : List Stmt)
    (ha : ∀ t ∈ a, t.kind ≠ .eof)
    (hb : ∀ t, b.head? = some t → t.kind ≠ .kwElse ∧ t.kind ≠ .kwOr)
    (hparse : (d.parse a file).result = .ok stmts) :
    (d.parse (a ++ b) file).result =
        (d.parseWith (d.parse a file).state.symbols b file').result.map (stmts ++ ·) ∧
      (d.parse (a ++ b) file).state.symbols =
        (d.parseWith (d.parse a file).state.symbols b file').state.symbols := by
  rw [parseWith]
  rcases eq_or_ne b [] with rfl | hne
  · obtain ⟨hresult, hstate⟩ := d.program_of_eof
      (s := ⟨Cursor.ofTokens [] file', (d.parse a file).state.symbols⟩) rfl
    rw [hresult, hstate, List.append_nil, hparse]
    exact ⟨by rw [Except.map, List.append_nil], rfl⟩
  · obtain ⟨hall, hstop⟩ := givesAll_of_many (s := State.ofTokens a file) ⟨hparse, rfl⟩
    have heof : (d.parse a file).state.cursor.here.kind = .eof :=
      of_decide_eq_true hstop
    -- The first part is read up to its end mark, which stands where the second part begins.
    obtain ⟨e, hspans, he⟩ := Cursor.exists_spans_ofTokens ha file
    obtain rfl := Cursor.Reaches.unique (d.reaches_of_givesAll hall) ⟨a, hspans, ha⟩ heof he
    have hspans' : (Cursor.ofTokens (a ++ b) file).Spans a (Cursor.ofTokens b file') := by
      rw [Cursor.Spans, Cursor.remaining_ofTokens, Cursor.remaining_ofTokens,
        Cursor.close_append a hne file file']
    have hhere : b.head? = some (Cursor.ofTokens b file').here := by
      rw [List.head?_eq_getElem?, ← Cursor.getElem?_close (List.length_pos_of_ne_nil hne) file']
      exact (Cursor.isAt_ofTokens b file').getElem?
    have hagain := d.givesAll_of_along hall heof ⟨a, a, hspans, hspans', List.forall₂_refl _⟩
      (hb _ hhere)
    obtain ⟨hresult, hstate⟩ := d.program_of_givesAll hagain
    exact ⟨hresult, congrArg State.symbols hstate⟩

/-- The tokens of a declaration and of a loop behind it. -/
def firstTokens : List Token :=
  [.bare .kwLet "let", .bare .identifier "x", .bare .colon ":", .bare .typeName "bool",
   .bare .assign "=", .bare .bool "true", .bare .semicolon ";", .bare .kwLoop "loop",
   .bare .openCurly "\x7b", .bare .closeCurly "\x7d"]

/-- The tokens of an assignment. -/
def secondTokens : List Token :=
  [.bare .identifier "x", .bare .assign "=", .bare .bool "false", .bare .semicolon ";"]

set_option maxRecDepth 2000 in
/-- A variable that is declared in the first part is known in the second one, and the loop at the
end of the first part is complete although something else follows. -/
theorem parse_append_assignment :
    (full.parse (firstTokens ++ secondTokens) "f").result =
      .ok [.declare "x" .bool false (.boolean true), .expr (.loop [] none),
        .assign "x" (.boolean false)] := by
  have hfirst : (full.parse firstTokens "f").result =
      .ok [.declare "x" .bool false (.boolean true), .expr (.loop [] none)] := by
    cbv
  have hsecond :
      (full.parseWith (full.parse firstTokens "f").state.symbols secondTokens "f").result =
      .ok [.assign "x" (.boolean false)] := by
    cbv
  have happend := parse_append full firstTokens secondTokens "f" "f" _ (by decide) (by decide)
    hfirst
  rw [happend.1, hsecond]
  rfl

end Dialect

end Cascade
