import Mathlib.Tactic.Common
import Cascade.Proofs.Runs

/-!
# Brackets are nested

A closing parenthesis ends a statement as a semicolon does, and it is not asked whether a
parenthesis is open.  It is not read at this place either: whoever has opened a parenthesis is the
only one to read the token that closes it.  So between two places that a rule begins and ends at,
every bracket is closed, and closed by its own counterpart.

## Main definitions

* `TokenKind.closing?` : the bracket that closes a bracket.
* `Nested` : the words in which every bracket is closed in its turn.
* `Cursor.Nests` : the brackets between two places are nested.

## Main results

* `Nested.exists_opening` : every closing bracket in a nested word closes an opening one.
* `Parse.nests_rule` : the brackets that a rule reads are nested.
* `Dialect.parse_nested` : only nested brackets are accepted.
-/

namespace Cascade

/-! ### Nested words -/

namespace TokenKind

/-- The bracket that closes an opening one. -/
def closing? : TokenKind → Option TokenKind
  | openParen => some closeParen
  | openCurly => some closeCurly
  | _ => none

/-- Whether tokens of the kind are brackets. -/
def isBracket : TokenKind → Bool
  | openParen | closeParen | openCurly | closeCurly => true
  | _ => false

/-- No bracket both opens and closes. -/
theorem ne_of_closing? {opening opening' closing closing' : TokenKind}
    (h : opening.closing? = some closing) (h' : opening'.closing? = some closing') :
    opening ≠ closing' := by
  rintro rfl
  cases opening <;> cases opening' <;> cases h <;> cases h'

/-- A bracket closes only one other. -/
theorem closing?_inj {opening opening' closing : TokenKind}
    (h : opening.closing? = some closing) (h' : opening'.closing? = some closing) :
    opening' = opening := by
  cases opening <;> cases opening' <;> cases h <;> cases h' <;> rfl

end TokenKind

/-- Whether every bracket of a word is closed, the last one that was opened first. -/
inductive Nested : List TokenKind → Prop
  | nil : Nested []
  | pair {opening closing : TokenKind} {inner rest : List TokenKind}
      (hclosing : opening.closing? = some closing) (hinner : Nested inner) (hrest : Nested rest) :
      Nested (opening :: (inner ++ closing :: rest))

namespace Nested

variable {word word' : List TokenKind}

/-- Nested words one behind the other are nested. -/
theorem append (h : Nested word) (h' : Nested word') : Nested (word ++ word') := by
  induction h with
  | nil => exact h'
  | @pair opening closing inner rest hclosing hinner hrest _ ih =>
    have hpair := Nested.pair hclosing hinner ih
    simpa only [List.cons_append, List.append_assoc] using hpair

/-- Every closing bracket closes one of its own kind, and what lies between them is nested. -/
theorem exists_opening (h : Nested word) {opening closing : TokenKind}
    (hclosing : opening.closing? = some closing) {before after : List TokenKind}
    (hword : word = before ++ closing :: after) :
    ∃ outer inner, before = outer ++ opening :: inner ∧ Nested inner := by
  induction h generalizing before after with
  | nil => exact absurd hword (by simp)
  | @pair opening' closing' inner rest hclosing' hinner hrest ihinner ihrest =>
    cases before with
    | nil => exact absurd (List.cons.inj hword).1 (TokenKind.ne_of_closing? hclosing' hclosing)
    | cons first before =>
      obtain ⟨rfl, htail⟩ := List.cons.inj hword
      have hfirst : closing' = closing →
          ∃ outer within, opening' :: inner = outer ++ opening :: within ∧ Nested within := by
        rintro rfl
        obtain rfl := TokenKind.closing?_inj hclosing' hclosing
        exact ⟨[], inner, rfl, hinner⟩
      -- The bracket closes the first pair, or it stands behind it or inside of it.
      rcases List.append_eq_append_iff.1 htail with ⟨between, rfl, hrest'⟩ | ⟨between, rfl, hinner'⟩
      · cases between with
        | nil => simpa using hfirst (List.cons.inj hrest').1
        | cons first between =>
          obtain ⟨rfl, hbehind⟩ := List.cons.inj hrest'
          obtain ⟨outer, within, rfl, hwithin⟩ := ihrest hbehind
          exact ⟨opening' :: (inner ++ closing' :: outer), within, by simp, hwithin⟩
      · cases between with
        | nil => simpa using hfirst (List.cons.inj hinner').1.symm
        | cons first between =>
          obtain ⟨rfl, -⟩ := List.cons.inj hinner'
          obtain ⟨outer, within, rfl, hwithin⟩ := ihinner rfl
          exact ⟨opening' :: outer, within, rfl, hwithin⟩

end Nested

/-- The brackets among some tokens. -/
def brackets (tokens : List Token) : List TokenKind :=
  (tokens.map Token.kind).filter TokenKind.isBracket

theorem brackets_append (tokens tokens' : List Token) :
    brackets (tokens ++ tokens') = brackets tokens ++ brackets tokens' := by
  rw [brackets, List.map_append, List.filter_append]
  rfl

/-- The kind of an operator between two operands. -/
theorem Token.kind_of_isOperator {token : Token} {operators : List String}
    (h : token.isOperator operators = true) : token.kind = .binaryOperator := by
  simp only [isOperator, Bool.and_eq_true, decide_eq_true_eq] at h
  exact h.1

/-! ### Brackets between two places -/

namespace Cursor

/-- Whether the tokens between two places hold nested brackets and no end mark. -/
def Nests (c c' : Cursor) : Prop :=
  ∃ read, c.remaining = read ++ c'.remaining ∧ (∀ t ∈ read, t.kind ≠ .eof) ∧
    Nested (brackets read)

variable {c d c' : Cursor}

theorem Nests.refl (c : Cursor) : c.Nests c :=
  ⟨[], rfl, nofun, .nil⟩

theorem Nests.trans (h : c.Nests d) (h' : d.Nests c') : c.Nests c' := by
  obtain ⟨read, hread, heof, hnested⟩ := h
  obtain ⟨read', hread', heof', hnested'⟩ := h'
  refine ⟨read ++ read', by rw [hread, hread', List.append_assoc], ?_, ?_⟩
  · exact List.forall_mem_append.2 ⟨heof, heof'⟩
  · rw [brackets_append]
    exact hnested.append hnested'

/-- A token that is no bracket may be read at any time. -/
theorem nests_advance {kind : TokenKind} (hkind : c.here.kind = kind)
    (hplain : kind ≠ .eof ∧ kind.isBracket = false) : c.Nests c.advance := by
  subst hkind
  refine ⟨[c.here], ?_, List.forall_mem_singleton.2 hplain.1, ?_⟩
  · rw [remaining_advance hplain.1]
    rfl
  · have hnone : brackets [c.here] = [] := by simp [brackets, hplain.2]
    exact hnone ▸ .nil

theorem Nests.step {kind : TokenKind} (hkind : c.here.kind = kind)
    (hplain : kind ≠ .eof ∧ kind.isBracket = false) (h : c.advance.Nests c') : c.Nests c' :=
  (nests_advance hkind hplain).trans h

/-- Whoever opens a bracket also reads the one that closes it. -/
theorem Nests.between {opening closing : TokenKind} (hclosing : opening.closing? = some closing)
    (hopen : c.here.kind = opening) (h : c.advance.Nests d) (hclose : d.here.kind = closing) :
    c.Nests d.advance := by
  obtain ⟨read, hread, heof, hnested⟩ := h
  have hbrackets : (opening.isBracket = true ∧ opening ≠ .eof) ∧
      closing.isBracket = true ∧ closing ≠ .eof := by
    cases opening <;> cases hclosing <;> decide
  obtain ⟨⟨hopening, hopeneof⟩, hclosing', hcloseeof⟩ := hbrackets
  rw [remaining_advance (hopen ▸ hopeneof)] at hread
  refine ⟨c.here :: (read ++ [d.here]), ?_, ?_, ?_⟩
  · rw [remaining_advance (hclose ▸ hcloseeof), remaining, hread, remaining]
    simp
  · refine List.forall_mem_cons.2 ⟨hopen ▸ hopeneof, ?_⟩
    exact List.forall_mem_append.2 ⟨heof, List.forall_mem_singleton.2 (hclose ▸ hcloseeof)⟩
  · have hword : brackets (c.here :: (read ++ [d.here])) =
        opening :: (brackets read ++ [closing]) := by
      simp [brackets, hopen, hclose, hopening, hclosing']
    rw [hword]
    exact .pair hclosing hnested .nil

/-- The tokens in front of the first end mark do not change when the row is closed. -/
theorem takeWhile_close (tokens : List Token) (file : String) :
    (close tokens file).takeWhile (fun t => t.kind ≠ .eof) =
      tokens.takeWhile fun t => t.kind ≠ .eof := by
  unfold close
  split
  · rfl
  · rw [List.takeWhile_append]
    split
    · rename_i hall
      rw [(List.takeWhile_prefix _).eq_of_length hall,
        List.takeWhile_cons_of_neg (by simp [Token.endMark]), List.append_nil]
    · rfl

end Cursor

/-! ### What the rules read -/

namespace Parse

/-- Whether the brackets are nested in what a step reads, when it gives a result. -/
def Nests {α : Type} (p : Parse α) : Prop :=
  ∀ s a s', p.Gives s a s' → s.cursor.Nests s'.cursor

variable {production : Production → Parse Stmt} {statement : Parse Stmt}

/-- A statement ends behind a semicolon, or in front of a closing parenthesis, which it does not
read. -/
theorem nests_terminator : terminator.Nests := by
  intro s _ s' h
  rcases gives_terminator.1 h with ⟨hkind, rfl⟩ | ⟨-, rfl⟩
  · exact Cursor.nests_advance hkind (by decide)
  · exact .refl _

theorem nests_mutability : mutability.Nests := by
  intro s isMutable s' h
  rcases gives_mutability h with ⟨-, hkind, rfl⟩ | ⟨-, -, rfl⟩
  · exact Cursor.nests_advance hkind (by decide)
  · exact .refl _

section Parts

variable (hproduction : ∀ p, (production p).Nests) (hstatement : statement.Nests)

include hproduction in
theorem nests_condition : (condition production).Nests := by
  intro s guard s' h
  obtain ⟨e, he, -⟩ := gives_condition.1 h
  exact hproduction _ _ _ _ he

include hstatement

theorem nests_of_givesAll {s s' : State} {body : List Stmt} (h : statement.GivesAll s body s') :
    s.cursor.Nests s'.cursor := by
  induction h with
  | nil s => exact .refl _
  | cons first rest ih => exact (hstatement _ _ _ first).trans ih

theorem nests_scope : (scope statement).Nests := by
  intro s body s' h
  obtain ⟨t, hopen, hbody, hclose, rfl⟩ := givesAll_of_scope h
  have hinner := nests_of_givesAll hstatement hbody
  exact .between rfl hopen hinner hclose

theorem nests_loopBody : (loopBody statement).Nests := by
  rintro s ⟨body, fallback⟩ s' h
  obtain ⟨t, hbody, hfallback⟩ := gives_loopBody.1 h
  refine (nests_scope hstatement _ _ _ hbody).trans ?_
  rcases hfallback with ⟨hor, other, hother, -⟩ | ⟨-, -, rfl⟩
  · exact .step hor (by decide) (nests_scope hstatement _ _ _ hother)
  · exact .refl _

include hproduction in
theorem nests_elseBranches (fuel : Nat) (chain : Chain) :
    (elseBranches production statement fuel chain).Nests := by
  induction fuel generalizing chain with
  | zero => exact fun s chain' s' h => absurd h not_gives_exhausted
  | succ fuel ih =>
    intro s chain' s' h
    rcases gives_elseBranches h with ⟨-, -, rfl⟩ | ⟨helse, -, body, hbody, -⟩ |
      ⟨helse, hif, guard, t, body, u, hguard, hbody, hrest⟩
    · exact .refl _
    · exact .step helse (by decide) (nests_scope hstatement _ _ _ hbody)
    · have hbranch := (nests_condition hproduction _ _ _ hguard).trans
        (nests_scope hstatement _ _ _ hbody)
      exact .step helse (by decide) (.step hif (by decide) (hbranch.trans (ih _ _ _ _ hrest)))

end Parts

/-! One lemma for each rule that reads more than a single token. -/

section Rules

variable (hproduction : ∀ p, (production p).Nests) (hstatement : statement.Nests)

include hproduction

theorem nests_declarationRule : (declarationRule production).Nests := by
  intro s stmt s' h
  rcases gives_declarationRule h with ⟨-, h⟩ | ⟨hlet, isMutable, t, type, e, u, value, hmut, hname,
    hcolon, htype, -, hassign, he, -, -, hsemicolon, -, rfl⟩
  · exact hproduction _ _ _ _ h
  · have hvalue := (hproduction _ _ _ _ he).trans (Cursor.nests_advance hsemicolon (by decide))
    have htyped := hvalue.step hassign (by decide) |>.step htype (by decide)
    have hnamed := htyped.step hcolon (by decide) |>.step hname (by decide)
    exact .step hlet (by decide) ((nests_mutability _ _ _ hmut).trans hnamed)

theorem nests_assignmentRule : (assignmentRule production).Nests := by
  intro s stmt s' h
  obtain ⟨target, t, htarget, ⟨hend, -⟩ | ⟨hassign, name, e, u, value, -, he, -, -, hend, -⟩⟩ :=
    gives_assignmentRule h
  · exact (hproduction _ _ _ _ htarget).trans (nests_terminator _ _ _ hend)
  · have hvalue := (hproduction _ _ _ _ he).trans (nests_terminator _ _ _ hend)
    exact (hproduction _ _ _ _ htarget).trans (hvalue.step hassign (by decide))

theorem nests_levelRule (whole operand : Production) (operators : List String) :
    (levelRule production whole operand operators).Nests := by
  intro s stmt s' h
  obtain ⟨left, t, hleft, ⟨-, -, rfl⟩ | ⟨hop, right, value, hright, -⟩⟩ := gives_levelRule h
  · exact hproduction _ _ _ _ hleft
  · have hkind := Token.kind_of_isOperator hop
    exact (hproduction _ _ _ _ hleft).trans ((hproduction _ _ _ _ hright).step hkind (by decide))

theorem nests_unaryRule : (unaryRule production).Nests := by
  intro s stmt s' h
  rcases gives_unaryRule h with ⟨hnot, -, term, value, hterm, -⟩ | ⟨hminus, e, term, he, -⟩ |
    ⟨-, -, h⟩
  · exact .step hnot (by decide) (hproduction _ _ _ _ hterm)
  · exact .step (Token.kind_of_isOperator hminus) (by decide) (hproduction _ _ _ _ he)
  · exact hproduction _ _ _ _ h

theorem nests_jumpRule (target : Jump) : (jumpRule production target).Nests := by
  intro s stmt s' h
  rcases gives_jumpRule h with ⟨-, h⟩ | ⟨hjump, hsemicolon, -, rfl⟩
  · exact hproduction _ _ _ _ h
  · refine .step hjump ?_ (Cursor.nests_advance hsemicolon (by decide))
    cases target <;> decide

include hstatement

theorem nests_conditionalRule : (conditionalRule production statement).Nests := by
  intro s stmt s' h
  rcases gives_conditionalRule h with ⟨-, h⟩ | ⟨hif, guard, t, body, u, fuel, chain, hguard, hbody,
    hchain, -⟩
  · exact hproduction _ _ _ _ h
  · have hbranch := (nests_condition hproduction _ _ _ hguard).trans
      (nests_scope hstatement _ _ _ hbody)
    have hothers := nests_elseBranches hproduction hstatement _ _ _ _ _ hchain
    exact .step hif (by decide) (hbranch.trans hothers)

/-- The update of a `for` loop ends in front of the parenthesis that closes the header. -/
theorem nests_forRule : (forRule production statement).Nests := by
  intro s stmt s' h
  rcases gives_forRule h with ⟨-, h⟩ | ⟨hfor, hopen, init, t, guard, u, update, v, body, fallback,
    hinit, hguard, hsemicolon, hupdate, hclose, hbody, -⟩
  · exact hproduction _ _ _ _ h
  · have hrest := (hproduction _ _ _ _ hupdate).step hsemicolon (by decide)
    have hheader := (hproduction _ _ _ _ hinit).trans
      ((nests_condition hproduction _ _ _ hguard).trans hrest)
    have hparens := Cursor.Nests.between rfl hopen hheader hclose
    exact .step hfor (by decide) (hparens.trans (nests_loopBody hstatement _ _ _ hbody))

theorem nests_whileRule : (whileRule production statement).Nests := by
  intro s stmt s' h
  rcases gives_whileRule h with ⟨-, h⟩ | ⟨hwhile, guard, t, body, fallback, hguard, hbody, -⟩
  · exact hproduction _ _ _ _ h
  · have hloop := nests_loopBody hstatement _ _ _ hbody
    exact .step hwhile (by decide) ((nests_condition hproduction _ _ _ hguard).trans hloop)

theorem nests_loopRule : (loopRule production statement).Nests := by
  intro s stmt s' h
  rcases gives_loopRule h with ⟨-, h⟩ | ⟨hloop, body, fallback, hbody, -⟩
  · exact hproduction _ _ _ _ h
  · exact .step hloop (by decide) (nests_loopBody hstatement _ _ _ hbody)

/-- The statement in parentheses may end in front of the closing one, which is read here. -/
theorem nests_parenthesisRule : (parenthesisRule production statement).Nests := by
  intro s stmt s' h
  rcases gives_parenthesisRule h with ⟨-, h⟩ | ⟨hopen, e, t, he, hclose, -, rfl⟩
  · exact hproduction _ _ _ _ h
  · exact .between rfl hopen (hstatement _ _ _ he) hclose

end Rules

/-- The brackets are nested in what a rule of a dialect reads, provided this is so for the
productions and statements inside. -/
theorem nests_rule {d : Dialect} {p : Production} {rule : Rule}
    (hrule : d.grammar.rule? p = some rule) (hproduction : ∀ p, (production p).Nests)
    (hstatement : statement.Nests) : (rule.parse production statement).Nests := by
  cases rule with
  | conditional => exact nests_conditionalRule hproduction hstatement
  | forLoop => exact nests_forRule hproduction hstatement
  | whileLoop => exact nests_whileRule hproduction hstatement
  | loop => exact nests_loopRule hproduction hstatement
  | jump target => exact nests_jumpRule hproduction target
  | declaration => exact nests_declarationRule hproduction
  | assignment => exact nests_assignmentRule hproduction
  | forward target => exact hproduction target
  | level whole operand operators => exact nests_levelRule hproduction whole operand operators
  | unary => exact nests_unaryRule hproduction
  | parenthesis => exact nests_parenthesisRule hproduction hstatement
  | leaf kind read otherwise =>
    have hplain : kind ≠ .eof ∧ kind.isBracket = false := by
      cases d <;> cases p <;> cases hrule <;> decide
    intro s stmt s' h
    rcases gives_leafRule h with ⟨-, h⟩ | ⟨hkind, e, -, -, rfl⟩
    · exact hproduction _ _ _ _ h
    · exact Cursor.nests_advance hkind hplain
  | number =>
    intro s stmt s' h
    obtain ⟨hkind, e, -, -, rfl⟩ := gives_numberRule h
    exact Cursor.nests_advance hkind (by decide)

end Parse

/-! ### Programs -/

namespace Dialect

open Parse

theorem nests_production (d : Dialect) (p : Production) : (d.grammar.production p).Nests := by
  intro s stmt s' h
  refine d.grammar.gives_induction (motive := fun s _ s' => s.cursor.Nests s'.cursor) ?_ h
  intro production statement hproduction hstatement p rule hrule
  exact nests_rule hrule hproduction hstatement

theorem nests_statement (d : Dialect) : d.grammar.statement.Nests := by
  intro s stmt s' h
  obtain ⟨root, hroot⟩ := Grammar.gives_start h
  exact d.nests_production root s stmt s' hroot

/-- Only nested brackets are accepted, from the first token to the first end mark.  So every closing
bracket closes one of its own kind that was opened before it: a parenthesis that ends a statement is
never one that nobody has opened. -/
theorem parse_nested (d : Dialect) (tokens : List Token) (file : String) (program : List Stmt)
    (h : (d.parse tokens file).result = .ok program) :
    Nested (brackets (tokens.takeWhile fun t => t.kind ≠ .eof)) ∧
      ∀ opening closing before after, opening.closing? = some closing →
        brackets (tokens.takeWhile fun t => t.kind ≠ .eof) = before ++ closing :: after →
        ∃ outer inner, before = outer ++ opening :: inner ∧ Nested inner := by
  suffices hnested : Nested (brackets (tokens.takeWhile fun t => t.kind ≠ .eof)) from
    ⟨hnested, fun _ _ _ _ hclosing hword => hnested.exists_opening hclosing hword⟩
  obtain ⟨hall, hstop⟩ := givesAll_of_many (s := State.ofTokens tokens file) ⟨h, rfl⟩
  obtain ⟨read, hread, heof, hnested⟩ := nests_of_givesAll d.nests_statement hall
  have htokens : tokens.takeWhile (fun t => t.kind ≠ .eof) = read := by
    rw [← Cursor.takeWhile_close tokens file, ← Cursor.remaining_ofTokens]
    change (State.ofTokens tokens file).cursor.remaining.takeWhile _ = read
    rw [hread, List.takeWhile_append_of_pos (by simpa using heof), Cursor.remaining,
      List.takeWhile_cons_of_neg (by simpa using hstop), List.append_nil]
  rwa [htokens]

/-- A `for` loop whose update ends with the header, and a statement in parentheses. -/
def headerTokens : List Token :=
  [.bare .kwFor "for", .bare .openParen "(", .bare .identifier "x", .bare .semicolon ";",
   .bare .identifier "x", .bare .semicolon ";", .bare .identifier "x", .bare .closeParen ")",
   .bare .openCurly "\x7b", .bare .openParen "(", .bare .identifier "x", .bare .closeParen ")",
   .bare .semicolon ";", .bare .closeCurly "\x7d"]

set_option maxRecDepth 2000 in
/-- The parenthesis that ends the update is the one that closes the header. -/
theorem parse_nested_header :
    (∃ program, (full.parse headerTokens "").result = .ok program) ∧
      brackets (headerTokens.takeWhile fun t => t.kind ≠ .eof) =
        [.openParen, .closeParen, .openCurly, .openParen, .closeParen, .closeCurly] ∧
      Nested (brackets (headerTokens.takeWhile fun t => t.kind ≠ .eof)) := by
  have hresult : (full.parse headerTokens "").result =
      .ok [.expr (.forLoop (.expr (.identifier "x")) (.identifier "x") (.expr (.identifier "x"))
        [.expr (.identifier "x")] none)] := by
    cbv
  exact ⟨⟨_, hresult⟩, by decide, (parse_nested full headerTokens "" _ hresult).1⟩

end Dialect

end Cascade
