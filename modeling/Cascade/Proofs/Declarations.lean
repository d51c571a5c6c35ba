import Mathlib.Tactic.Common
import Cascade.Proofs.Effects
import Cascade.Proofs.Extension
import Cascade.Proofs.Places

/-!
# Where declared variables come from

A variable is declared when its declaration is complete, and a step that fails later on does not
take it back.  So whatever happens behind a declaration, each entry of the table can be traced to
the tokens of a complete declaration that were read.

## Main definitions

* `IsDeclarationHead` : the tokens of a declaration in front of its value.
* `DeclaredIn` : a row of tokens has a complete declaration of a name.
* `Symbols.EnteredFrom` : every entry that changes between two tables comes from some tokens.
* `State.MovesOn`, `State.Evolves` : what may become of a state, without and with declarations.

## Main results

* `Parse.failsInto_declarationRule` : a declaration that fails leaves the table to its value.
* `Grammar.evolves_production` : declared variables come from declarations, whatever the grammar is.
* `Dialect.statement_declares` : so they do in a statement, whether it succeeds or fails.
-/

namespace Cascade

/-- A token that is no end mark stands between two places. -/
theorem Cursor.spans_here {c : Cursor} {kind : TokenKind} (h : c.here.kind = kind)
    (hkind : kind ≠ .eof := by decide) : c.Spans [c.here] c.advance :=
  (spans_singleton (h ▸ hkind)).2 ⟨rfl, rfl⟩

/-! ### Complete declarations -/

/-- Whether some tokens are those of a declaration in front of its value. -/
def IsDeclarationHead (name : String) (type : ValueType) (tokens : List Token) : Prop :=
  ∃ opening marks identifier colon typeName sign,
    tokens = opening :: (marks ++ [identifier, colon, typeName, sign]) ∧
    opening.kind = .kwLet ∧ (marks = [] ∨ marks.map Token.kind = [.kwMut]) ∧
    identifier.kind = .identifier ∧ identifier.value = name ∧ colon.kind = .colon ∧
    typeName.kind = .typeName ∧ ValueType.ofName typeName.value = .ok type ∧ sign.kind = .assign

/-- Whether some tokens have a declaration of a name among them, from its first token to a
semicolon. -/
def DeclaredIn (name : String) (type : ValueType) (tokens : List Token) : Prop :=
  ∃ before head value mark after, tokens = before ++ (head ++ (value ++ mark :: after)) ∧
    IsDeclarationHead name type head ∧ mark.kind = .semicolon

section DeclaredIn

variable {name : String} {type : ValueType} {tokens : List Token}

theorem DeclaredIn.append_right (h : DeclaredIn name type tokens) (more : List Token) :
    DeclaredIn name type (tokens ++ more) := by
  obtain ⟨before, head, value, mark, after, rfl, hhead, hmark⟩ := h
  exact ⟨before, head, value, mark, after ++ more, by simp, hhead, hmark⟩

theorem DeclaredIn.append_left (h : DeclaredIn name type tokens) (more : List Token) :
    DeclaredIn name type (more ++ tokens) := by
  obtain ⟨before, head, value, mark, after, rfl, hhead, hmark⟩ := h
  exact ⟨more ++ before, head, value, mark, after, by simp, hhead, hmark⟩

theorem IsDeclarationHead.kind_ne_eof (h : IsDeclarationHead name type tokens) :
    ∀ token ∈ tokens, token.kind ≠ .eof := by
  obtain ⟨opening, marks, identifier, colon, typeName, sign, rfl, hopening, hmarks, hidentifier, -,
    hcolon, htypeName, -, hsign⟩ := h
  have hmarks' : ∀ token ∈ marks, token.kind ≠ .eof := by
    intro token htoken
    have hkind := List.mem_map_of_mem (f := Token.kind) htoken
    rcases hmarks with rfl | hmarks
    · cases htoken
    · rw [hmarks, List.mem_singleton] at hkind
      simp [hkind]
  simp only [List.forall_mem_cons, List.forall_mem_append, hopening, hidentifier, hcolon, htypeName,
    hsign, ne_eq, reduceCtorEq, not_false_eq_true, true_and, and_true, List.not_mem_nil,
    IsEmpty.forall_iff, implies_true]
  exact hmarks'

end DeclaredIn

namespace Symbols

/-- Whether every entry that changes from one table to another comes from a declaration among some
tokens. -/
def EnteredFrom (tokens : List Token) (symbols symbols' : Symbols) : Prop :=
  ∀ name, symbols'.lookup? name ≠ symbols.lookup? name →
    ∃ type, symbols'.lookup? name = some type ∧ DeclaredIn name type tokens

variable {tokens : List Token} {symbols symbols' symbols'' : Symbols}

theorem enteredFrom_self (tokens : List Token) (symbols : Symbols) :
    EnteredFrom tokens symbols symbols :=
  fun _ hne => absurd rfl hne

theorem EnteredFrom.append_right (h : EnteredFrom tokens symbols symbols') (more : List Token) :
    EnteredFrom (tokens ++ more) symbols symbols' := by
  intro name hne
  obtain ⟨type, htype, hdeclared⟩ := h name hne
  exact ⟨type, htype, hdeclared.append_right more⟩

theorem EnteredFrom.append_left (h : EnteredFrom tokens symbols symbols') (more : List Token) :
    EnteredFrom (more ++ tokens) symbols symbols' := by
  intro name hne
  obtain ⟨type, htype, hdeclared⟩ := h name hne
  exact ⟨type, htype, hdeclared.append_left more⟩

/-- Of two declarations of a name the later one counts. -/
theorem EnteredFrom.trans (h : EnteredFrom tokens symbols symbols')
    (h' : EnteredFrom tokens symbols' symbols'') : EnteredFrom tokens symbols symbols'' := by
  intro name hne
  by_cases hlater : symbols''.lookup? name = symbols'.lookup? name
  · rw [hlater] at hne ⊢
    exact h name hne
  · exact h' name hlater

theorem enteredFrom_declare (symbols : Symbols) {name : String} {type : ValueType}
    (h : DeclaredIn name type tokens) :
    EnteredFrom tokens symbols (symbols.declare name type) := by
  intro other hne
  rw [lookup?_declare] at hne ⊢
  split at hne
  · rename_i heq
    subst heq
    exact ⟨type, if_pos rfl, h⟩
  · exact absurd rfl hne

/-- A name that is declared stays declared. -/
theorem EnteredFrom.declares (h : EnteredFrom tokens symbols symbols') {name : String}
    (hname : symbols.Declares name) : symbols'.Declares name := by
  by_cases hsame : symbols'.lookup? name = symbols.lookup? name
  · obtain ⟨type, htype⟩ := hname
    exact ⟨type, hsame.trans htype⟩
  · obtain ⟨type, htype, -⟩ := h name hsame
    exact ⟨type, htype⟩

end Symbols

/-! ### What may become of a state -/

namespace State

/-- Whether a state lies further on than another one, with the same variables. -/
def MovesOn (s t : State) : Prop :=
  s.cursor.Reaches t.cursor ∧ t.symbols = s.symbols

theorem frame_movesOn : Frame MovesOn where
  refl _ := ⟨.refl _, rfl⟩
  trans h h' := ⟨h.1.trans h'.1, h'.2.trans h.2⟩
  advance s := ⟨s.cursor.reaches_advance, rfl⟩

/-- Whether a state lies further on than another one, and every entry that has changed comes from
the tokens in between. -/
def Evolves (s t : State) : Prop :=
  ∃ read, s.cursor.Spans read t.cursor ∧ (∀ token ∈ read, token.kind ≠ .eof) ∧
    Symbols.EnteredFrom read s.symbols t.symbols

variable {s t : State}

theorem MovesOn.evolves (h : s.MovesOn t) : s.Evolves t := by
  obtain ⟨⟨read, hread, hinside⟩, hsymbols⟩ := h
  exact ⟨read, hread, hinside, hsymbols ▸ Symbols.enteredFrom_self read s.symbols⟩

theorem frame_evolves : Frame Evolves where
  refl s := (frame_movesOn.refl s).evolves
  trans := by
    rintro s t u ⟨read, hread, hinside, hentered⟩ ⟨read', hread', hinside', hentered'⟩
    exact ⟨read ++ read', hread.trans hread', List.forall_mem_append.2 ⟨hinside, hinside'⟩,
      (hentered.append_right read').trans (hentered'.append_left read)⟩
  advance s := (frame_movesOn.advance s).evolves

/-- Whether a state lies right behind the head of a declaration that begins at another one. -/
def HeadTo (s : State) (name : String) (type : ValueType) (v : State) : Prop :=
  v.symbols = s.symbols ∧ ∃ head, IsDeclarationHead name type head ∧ s.cursor.Spans head v.cursor

theorem HeadTo.movesOn {name : String} {type : ValueType} (h : s.HeadTo name type t) :
    s.MovesOn t := by
  obtain ⟨hsymbols, head, hhead, hspans⟩ := h
  exact ⟨⟨head, hspans, hhead.kind_ne_eof⟩, hsymbols⟩

end State

/-! ### Declarations -/

namespace Parse

variable {production : Production → Parse Stmt} {s t : State}

/-- The head of a declaration: whether the variable is mutable, its name and its type. -/
def declarationHead : Parse (Bool × String × ValueType) := do
  let _ ← advance
  let isMutable ← mutability
  let name ← expect .identifier "identifier"
  let _ ← expect .colon "colon"
  let type ← declaredType
  let _ ← expect .assign "assignment symbol"
  return (isMutable, name.value, type)

/-- A declaration behind its head. -/
def declarationTail (production : Production → Parse Stmt) (isMutable : Bool) (name : String)
    (type : ValueType) : Parse Stmt := do
  let start ← position
  let value ← fold (← expression production .binary)
  let value ← checkValue start type value
  let _ ← expect .semicolon "semicolon"
  declare name type
  return .declare name type isMutable value

theorem declarationRule_eq (production : Production → Parse Stmt) :
    declarationRule production = (do
      if (← kind) ≠ .kwLet then production .assignment
      else
        let (isMutable, name, type) ← declarationHead
        declarationTail production isMutable name type) := by
  simp only [declarationRule, declarationHead, declarationTail, bind_assoc, pure_bind]

/-- What does not begin with `let` is left to the assignments. -/
theorem run_declarationRule_of_ne (h : s.cursor.here.kind ≠ .kwLet) :
    (declarationRule production).run s = (production .assignment).run s := by
  rw [declarationRule, run_bind_of_ok (congrArg Outcome.result (run_kind s)), run_kind]
  simp only [if_pos h, List.nil_append]

theorem movesOn_declarationHead : declarationHead.Keeps State.MovesOn := by
  have hR := State.frame_movesOn
  refine hR.bind hR.keeps_advance fun _ => hR.bind ?_ fun isMutable => ?_
  · refine hR.bind (hR.stays fun _ => rfl) fun k => ?_
    split
    · exact hR.bind hR.keeps_advance fun _ => hR.keeps_pure _
    · exact hR.keeps_pure _
  refine hR.bind (hR.keeps_expect _ _) fun name => hR.bind (hR.keeps_expect _ _) fun _ => ?_
  refine hR.bind (hR.bind (hR.keeps_expect _ _) fun _ => hR.stays fun _ => rfl) fun type => ?_
  exact hR.bind (hR.keeps_expect _ _) fun _ => hR.keeps_pure _

/-- Behind the mark of a mutable variable, or behind `let` if there is none, the head goes on with
four tokens. -/
theorem headTo_of_mutability {isMutable : Bool} {type : ValueType}
    (hlet : s.cursor.here.kind = .kwLet) (hmut : mutability.Gives s.advance isMutable t)
    (hname : t.cursor.here.kind = .identifier) (hcolon : t.advance.cursor.here.kind = .colon)
    (htype : t.advance.advance.cursor.here.kind = .typeName)
    (hof : ValueType.ofName t.advance.advance.cursor.here.value = .ok type)
    (hassign : t.advance.advance.advance.cursor.here.kind = .assign) :
    s.HeadTo t.cursor.here.value type t.advance.advance.advance.advance := by
  have hrest := (Cursor.spans_here hname).trans ((Cursor.spans_here hcolon).trans
    ((Cursor.spans_here htype).trans (Cursor.spans_here hassign)))
  obtain ⟨marks, hmarks, hspans, hsymbols⟩ : ∃ marks : List Token,
      (marks = [] ∨ marks.map Token.kind = [.kwMut]) ∧ s.advance.cursor.Spans marks t.cursor ∧
      t.symbols = s.symbols := by
    rcases gives_mutability hmut with ⟨-, hmark, rfl⟩ | ⟨-, -, rfl⟩
    · exact ⟨[s.advance.cursor.here], .inr (congrArg (fun k => [k]) hmark),
        Cursor.spans_here hmark, rfl⟩
    · exact ⟨[], .inl rfl, Cursor.spans_nil.2 rfl, rfl⟩
  refine ⟨hsymbols, _, ⟨_, marks, _, _, _, _, rfl, hlet, hmarks, hname, rfl, hcolon, htype, hof,
    hassign⟩, ?_⟩
  exact (Cursor.spans_here hlet).trans (hspans.trans hrest)

theorem headTo_of_declarationHead {isMutable : Bool} {name : String} {type : ValueType}
    (hlet : s.cursor.here.kind = .kwLet)
    (h : declarationHead.Gives s (isMutable, name, type) t) : s.HeadTo name type t := by
  simp only [declarationHead, declaredType, gives_bind, gives_advance, gives_expect, gives_settle,
    gives_pure, and_assoc, exists_and_left, exists_eq_left, Prod.mk.injEq] at h
  obtain ⟨_, u, hmut, hname, hcolon, htype, _, hof, hassign, -, rfl, rfl, rfl⟩ := h
  exact headTo_of_mutability hlet hmut hname hcolon htype hof hassign

/-- Behind the head, a declaration that fails leaves the state to its value: the variable is
declared last, when nothing can fail any more. -/
theorem failsInto_declarationTail (production : Production → Parse Stmt) (isMutable : Bool)
    (name : String) (type : ValueType) (s : State) :
    (declarationTail production isMutable name type).FailsInto
      (· = ((production .binary).run s).state) s := by
  refine FailsInto.bind (failsInto_of_ok rfl) fun start t hstart => ?_
  obtain ⟨-, rfl⟩ := gives_position.1 hstart
  refine FailsInto.bind (FailsInto.bind (fun _ _ => rfl) ?_) fun e u he => ?_
  · rintro stmt u ⟨-, rfl⟩
    cases stmt <;> exact fun _ _ => rfl
  obtain ⟨-, rfl⟩ := gives_expression.1 he
  refine FailsInto.bind_of_stays rfl rfl fun value => ?_
  refine FailsInto.bind_of_stays rfl rfl fun value => ?_
  refine FailsInto.bind ?_ fun _ u _ => failsInto_of_ok rfl
  intro failure hfailure
  rw [run_expect] at hfailure ⊢
  split at hfailure
  · cases hfailure
  · rename_i hkind
    rw [if_neg hkind]

/-- A declaration that fails leaves the table as it was, or as its value leaves it: it never
declares its own variable. -/
theorem failsInto_declarationRule (hlet : s.cursor.here.kind = .kwLet) :
    (declarationRule production).FailsInto
      (fun t => s.MovesOn t ∨
        ∃ name type v, s.HeadTo name type v ∧ t = ((production .binary).run v).state) s := by
  rw [declarationRule_eq]
  refine FailsInto.bind (failsInto_of_ok rfl) fun k t hk => ?_
  obtain ⟨rfl, rfl⟩ := gives_kind.1 hk
  rw [if_neg (not_not.2 hlet)]
  refine FailsInto.bind ((movesOn_declarationHead.failsInto _).mono fun t => .inl) ?_
  rintro ⟨isMutable, name, type⟩ v hhead
  exact (failsInto_declarationTail production isMutable name type v).mono fun t ht =>
    .inr ⟨name, type, v, headTo_of_declarationHead hlet hhead, ht⟩

/-- A declaration that succeeds declares its variable, and nothing else that its value has not. -/
theorem evolves_of_declaration (hbinary : (production .binary).Keeps State.Evolves)
    (hlet : s.cursor.here.kind = .kwLet) {stmt : Stmt}
    (h : (declarationRule production).Gives s stmt t) : s.Evolves t := by
  rcases gives_declarationRule h with ⟨hne, -⟩ | ⟨-, isMutable, u, type, e, v, value, hmut, hname,
    hcolon, htype, hof, hassign, ⟨-, rfl⟩, -, -, hsemicolon, -, rfl⟩
  · exact absurd hlet hne
  obtain ⟨hsymbols, head, hhead, hspans⟩ :=
    headTo_of_mutability hlet hmut hname hcolon htype hof hassign
  obtain ⟨read, hread, hinside, hentered⟩ := hbinary u.advance.advance.advance.advance
  rw [hsymbols] at hentered
  refine ⟨head ++ (read ++ [_]), hspans.trans (hread.trans (Cursor.spans_here hsemicolon)), ?_, ?_⟩
  · refine List.forall_mem_append.2 ⟨hhead.kind_ne_eof, List.forall_mem_append.2 ⟨hinside, ?_⟩⟩
    exact List.forall_mem_singleton.2 (by simp [hsemicolon])
  · refine ((hentered.append_right _).append_left head).trans (Symbols.enteredFrom_declare _ ?_)
    exact ⟨[], head, read, _, [], rfl, hhead, hsemicolon⟩

theorem evolves_declarationRule (h : ∀ q, (production q).Keeps State.Evolves) :
    (declarationRule production).Keeps State.Evolves := by
  intro s
  by_cases hlet : s.cursor.here.kind = .kwLet
  · refine ((failsInto_declarationRule hlet).mono ?_).state fun stmt t =>
      evolves_of_declaration (h .binary) hlet
    rintro t (hmoves | ⟨name, type, v, hhead, rfl⟩)
    · exact hmoves.evolves
    · exact State.frame_evolves.trans hhead.movesOn.evolves (h .binary v)
  · rw [run_declarationRule_of_ne hlet]
    exact h .assignment s

end Parse

namespace Grammar

/-- Whatever rules a grammar has, a production moves on, and every variable that it declares comes
from a complete declaration that it has read, whether it succeeds or fails. -/
theorem evolves_production (g : Grammar) (p : Production) :
    (g.production p).Keeps State.Evolves :=
  keeps_production State.frame_evolves (fun _ h => Parse.evolves_declarationRule h) p

theorem evolves_statement (g : Grammar) : g.statement.Keeps State.Evolves :=
  keeps_start State.frame_evolves g.evolves_production

end Grammar

namespace Dialect

open Parse

/-- Without statements inside of expressions, only declarations declare variables. -/
theorem movesOn_production_basic {p : Production} (hp : p ≠ .declaration) :
    (basic.grammar.production p).Keeps State.MovesOn := by
  refine Grammar.keeps_production_of_rules State.frame_movesOn (P := (· ≠ .declaration))
    (fun p rule hp hrule production hproduction => ?_) hp
  have hother : rule ≠ .declaration := by
    rintro rfl
    cases p <;> cases hrule
    exact hp rfl
  have hnext : ∀ q ∈ rule.next?, q ≠ .declaration := by
    cases p <;> cases hrule <;> decide
  have hinner : ∀ q ∈ rule.inner, q ≠ .declaration := by
    cases p <;> cases hrule <;> decide
  have hflat : rule.nests = false := by
    cases p <;> cases hrule <;> rfl
  exact rule.keeps_parse State.frame_movesOn (fun h => absurd h hother)
    (fun q hq => hproduction q (hnext q hq)) (fun q hq => hproduction q (hinner q hq))
    fun h => absurd h (by simp [hflat])

theorem failsInto_production {d : Dialect} {p : Production} {rule : Rule} {Q : State → Prop}
    {s : State} (hrule : d.grammar.rule? p = some rule)
    (h : (rule.parse d.grammar.production (d.grammar.start d.grammar.production)).FailsInto Q s) :
    (d.grammar.production p).FailsInto Q s := by
  rw [production_eq_unfolded, Grammar.unfolded, hrule]
  refine FailsInto.bind (failsInto_of_ok rfl) fun token t htoken => ?_
  obtain ⟨-, rfl⟩ := gives_current.1 htoken
  refine FailsInto.bind (failsInto_of_ok rfl) fun _ u hu => ?_
  obtain rfl := gives_tell.1 hu
  exact h

/-- A declaration of a dialect that fails leaves the table as it was, or as its value leaves it. -/
theorem failsInto_declaration (d : Dialect) {s : State} (hlet : s.cursor.here.kind = .kwLet) :
    (d.grammar.production .declaration).FailsInto
      (fun t => s.MovesOn t ∨ ∃ name type v, s.HeadTo name type v ∧
        t = ((d.grammar.production .binary).run v).state) s := by
  cases d with
  | core => exact fun _ _ => .inl (State.frame_movesOn.refl s)
  | basic => exact failsInto_production rfl (failsInto_declarationRule hlet)
  | full => exact failsInto_production rfl (failsInto_declarationRule hlet)

/-- Nothing is declared by a statement of the basic dialect that fails. -/
theorem failsInto_statement_basic (s : State) :
    basic.grammar.statement.FailsInto s.MovesOn s := by
  rw [statement_basic]
  by_cases hlet : s.cursor.here.kind = .kwLet
  · refine (basic.failsInto_declaration hlet).mono ?_
    rintro t (hmoves | ⟨name, type, v, hhead, rfl⟩)
    · exact hmoves
    · exact State.frame_movesOn.trans hhead.movesOn (movesOn_production_basic (by decide) v)
  · have hrule : basic.grammar.rule? .declaration = some .declaration := rfl
    refine failsInto_production hrule fun failure _ => ?_
    change s.MovesOn ((declarationRule basic.grammar.production).run s).state
    rw [run_declarationRule_of_ne hlet]
    exact movesOn_production_basic (by decide) s

/-- A variable that is declared stays declared, and every entry that a statement adds or replaces
comes from a complete declaration among the tokens that were read, whether the statement succeeds or
fails.  In the basic dialect a statement that fails changes no entry.  A declaration that fails
leaves the table as it was in front of it, or as its value leaves it. -/
theorem statement_declares (d : Dialect) (s : State) :
    (∃ read, s.cursor.Spans read (d.grammar.statement.run s).state.cursor ∧
      (∀ name, s.symbols.Declares name →
        (d.grammar.statement.run s).state.symbols.Declares name) ∧
      ∀ name, (d.grammar.statement.run s).state.symbols.lookup? name ≠ s.symbols.lookup? name →
        ∃ type, (d.grammar.statement.run s).state.symbols.lookup? name = some type ∧
          DeclaredIn name type read) ∧
    (∀ failure, d = .basic → (d.grammar.statement.run s).result = .error failure →
      (d.grammar.statement.run s).state.symbols = s.symbols) ∧
    ∀ failure, s.cursor.here.kind = .kwLet →
      ((d.grammar.production .declaration).run s).result = .error failure →
      ((d.grammar.production .declaration).run s).state.symbols = s.symbols ∨
        ∃ name type v, s.HeadTo name type v ∧
          ((d.grammar.production .declaration).run s).state =
            ((d.grammar.production .binary).run v).state := by
  refine ⟨?_, ?_, ?_⟩
  · obtain ⟨read, hread, -, hentered⟩ := d.grammar.evolves_statement s
    exact ⟨read, hread, fun _ hname => hentered.declares hname, hentered⟩
  · rintro failure rfl hfailure
    exact (failsInto_statement_basic s failure hfailure).2
  · intro failure hlet hfailure
    rcases d.failsInto_declaration hlet failure hfailure with hmoves | hvalue
    · exact .inl hmoves.2
    · exact .inr hvalue

/-- The tokens of a declaration that is not complete, with a loop in its value and a declaration in
the loop. -/
def openTokens : List Token :=
  [.bare .kwLet "let", .bare .identifier "y", .bare .colon ":", .bare .typeName "bool",
   .bare .assign "=", .bare .openParen "(", .bare .kwLoop "loop", .bare .openCurly "\x7b",
   .bare .kwLet "let", .bare .kwMut "mut", .bare .identifier "x", .bare .colon ":",
   .bare .typeName "bool", .bare .assign "=", .bare .bool "true", .bare .semicolon ";",
   .bare .closeCurly "\x7d", .bare .semicolon ";"]

set_option maxRecDepth 4000 in
/-- The inner variable stays declared although the statement fails, and the outer one is not
declared: its declaration leaves what its value leaves.  The basic dialect does not get as far as
the loop. -/
theorem statement_declares_nested :
    (∃ read, (State.ofTokens openTokens "f").cursor.Spans read
        (full.grammar.statement.run (State.ofTokens openTokens "f")).state.cursor ∧
      DeclaredIn "x" .bool read) ∧
    (full.grammar.statement.run (State.ofTokens openTokens "f")).state.symbols.lookup? "y" = none ∧
    (∃ name type v, (State.ofTokens openTokens "f").HeadTo name type v ∧
      ((full.grammar.production .declaration).run (State.ofTokens openTokens "f")).state =
        ((full.grammar.production .binary).run v).state) ∧
    (basic.grammar.statement.run (State.ofTokens openTokens "f")).state.symbols = .empty := by
  have hsymbols : (full.grammar.statement.run (State.ofTokens openTokens "f")).state.symbols =
      Symbols.empty.declare "x" .bool := by
    cbv
  have hfails :
      ((full.grammar.production .declaration).run (State.ofTokens openTokens "f")).result =
        .error (.fault ⟨.syntaxError "closing parenthesis" ";", .nowhere⟩) := by
    cbv
  have hinner : ((full.grammar.production .declaration).run
      (State.ofTokens openTokens "f")).state.symbols = Symbols.empty.declare "x" .bool := by
    cbv
  have hbasic : (basic.grammar.statement.run (State.ofTokens openTokens "f")).result =
      .error (.fault ⟨.unexpectedToken "(", .nowhere⟩) := by
    cbv
  obtain ⟨⟨read, hread, -, hentered⟩, -, hvalue⟩ :=
    statement_declares full (State.ofTokens openTokens "f")
  obtain ⟨-, hunchanged, -⟩ := statement_declares basic (State.ofTokens openTokens "f")
  refine ⟨⟨read, hread, ?_⟩, by rw [hsymbols]; decide, ?_, hunchanged _ rfl hbasic⟩
  · rw [hsymbols] at hentered
    obtain ⟨type, htype, hdeclared⟩ := hentered "x" (by decide)
    cases htype
    exact hdeclared
  · refine (hvalue _ rfl hfails).resolve_left ?_
    rw [hinner]
    decide

end Dialect

end Cascade
