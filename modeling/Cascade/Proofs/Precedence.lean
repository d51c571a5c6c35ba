import Mathlib.Tactic.Common
import Cascade.Proofs.Expressions
import Cascade.Proofs.Places

/-!
# Precedence and associativity

Operators bind by level: products before sums, sums before logical operations, and on one level
they group to the right.  A sign takes a single primary.  This is said by a grammar of its own,
which derives rows of tokens together with the expressions they write, and the full dialect reads
every such row as the elaboration of its expression, whatever else is declared or comes behind, as
long as no operator follows.

## Main definitions

* `Written.Level`, `Written.Phrase` : the levels of binary operators, and the phrases.
* `Written.Derives` : the grammar.
* `Written.Expr.postorder`, `Written.Expr.FirstFault` : the parts of an expression, and the fault of
  the first one that has no value.

## Main results

* `Written.Expr.firstFault_of_elaborate` : an elaboration fails with the fault of the first part
  that has no value.
* `Written.Derives.realizes` : the tokens of a phrase are read as the elaboration of its expression.
* `Dialect.expression_of_derives` : precedence and associativity of the operators.
-/

namespace Cascade

namespace Written

/-! ### The grammar -/

/-- The levels of binary operators, the loosest first. -/
inductive Level where
  | logical
  | additive
  | multiplicative
deriving DecidableEq, Repr

/-- The phrases of the grammar. -/
inductive Phrase where
  /-- Operands with the operators of a level between them. -/
  | level (level : Level)
  /-- A primary with an optional sign in front of it. -/
  | unary
  /-- A single token, or anything in parentheses. -/
  | primary
deriving DecidableEq, Repr

/-- The level of an operator. -/
def Operator.level : Operator → Level
  | and | or => .logical
  | add | sub => .additive
  | mul | div => .multiplicative

/-- The operands on a level. -/
def Level.operand : Level → Phrase
  | logical => .level .additive
  | additive => .level .multiplicative
  | multiplicative => .unary

/-- The tokens that a phrase derives, with the expression that they write.  An operation has the
tighter phrase on its left and the whole level on its right, so a level groups to the right. -/
inductive Derives : Phrase → List Token → Expr → Prop
  | operand {level : Level} {tokens : List Token} {e : Expr}
      (h : Derives level.operand tokens e) : Derives (.level level) tokens e
  | operation (operator : Operator) {token : Token} {tokens tokens' : List Token}
      {left right : Expr} (hleft : Derives operator.level.operand tokens left)
      (hkind : token.kind = .binaryOperator) (hvalue : token.value = operator.symbol)
      (hright : Derives (.level operator.level) tokens' right) :
      Derives (.level operator.level) (tokens ++ token :: tokens') (.binary left operator right)
  | unsigned {tokens : List Token} {e : Expr} (h : Derives .primary tokens e) :
      Derives .unary tokens e
  | not {token : Token} {tokens : List Token} {term : Expr}
      (hkind : token.kind = .unaryOperator) (hvalue : token.value = "!")
      (h : Derives .primary tokens term) : Derives .unary (token :: tokens) (.not term)
  | neg {token : Token} {tokens : List Token} {term : Expr}
      (hkind : token.kind = .binaryOperator) (hvalue : token.value = "-")
      (h : Derives .primary tokens term) : Derives .unary (token :: tokens) (.neg term)
  | parenthesis {opening closing : Token} {tokens : List Token} {e : Expr}
      (hopen : opening.kind = .openParen) (h : Derives (.level .logical) tokens e)
      (hclose : closing.kind = .closeParen) :
      Derives .primary (opening :: (tokens ++ [closing])) e
  | number {token : Token} (numeral : Numeral) (hkind : token.kind = .number)
      (hvalue : token.value = numeral.text) : Derives .primary [token] (.number numeral)
  | boolean {token : Token} (hkind : token.kind = .bool) :
      Derives .primary [token] (.boolean (token.value = "true"))
  | char {token : Token} {value : Char} (hkind : token.kind = .char)
      (hread : readChar token = .ok (.char value)) : Derives .primary [token] (.char value)
  | str {token : Token} {value : String} (hkind : token.kind = .str)
      (hread : readStr token = .ok (.str value)) : Derives .primary [token] (.str value)
  | identifier {token : Token} (hkind : token.kind = .identifier) :
      Derives .primary [token] (.identifier token.value)

/-! ### The first fault of an expression -/

namespace Expr

/-- An expression and all its parts, the operands in front of their operation and the left one
first. -/
def postorder : Expr → List Expr
  | not term => term.postorder ++ [not term]
  | neg term => term.postorder ++ [neg term]
  | binary left operator right =>
    left.postorder ++ (right.postorder ++ [binary left operator right])
  | e => [e]

/-- Whether a fault is that of the first part that has no value, while the parts in front of it have
one. -/
def FirstFault (e : Expr) (fault : Fault) : Prop :=
  ∃ before part after, e.postorder = before ++ part :: after ∧
    (∀ other ∈ before, ∃ value, other.elaborate = .ok value) ∧ part.elaborate = .error fault

/-- If an expression has a value, so have its parts. -/
theorem elaborate_of_mem_postorder {e : Expr} {value : Cascade.Expr}
    (h : e.elaborate = .ok value) : ∀ part ∈ e.postorder, ∃ value, part.elaborate = .ok value := by
  induction e generalizing value with
  | number _ | boolean _ | char _ | str _ | identifier _ =>
    intro part hpart
    obtain rfl := List.mem_singleton.1 hpart
    exact ⟨value, h⟩
  | not term ih | neg term ih =>
    obtain ⟨t, ht, -⟩ := exists_of_bind h
    intro part hpart
    rcases List.mem_append.1 hpart with hpart | hpart
    · exact ih ht part hpart
    · obtain rfl := List.mem_singleton.1 hpart
      exact ⟨value, h⟩
  | binary left operator right ihl ihr =>
    obtain ⟨l, hl, hrest⟩ := exists_of_bind h
    obtain ⟨r, hr, -⟩ := exists_of_bind hrest
    intro part hpart
    rcases List.mem_append.1 hpart with hpart | hpart
    · exact ihl hl part hpart
    rcases List.mem_append.1 hpart with hpart | hpart
    · exact ihr hr part hpart
    · obtain rfl := List.mem_singleton.1 hpart
      exact ⟨value, h⟩

/-- What comes behind the first fault does not matter. -/
theorem FirstFault.append {e : Expr} {fault : Fault} (h : e.FirstFault fault) {whole : Expr}
    (before : List Expr) {after : List Expr}
    (hbefore : ∀ part ∈ before, ∃ value, part.elaborate = .ok value)
    (hwhole : whole.postorder = before ++ (e.postorder ++ after)) : whole.FirstFault fault := by
  obtain ⟨front, part, back, hpost, hfront, hpart⟩ := h
  refine ⟨before ++ front, part, back ++ after, ?_, fun other hother => ?_, hpart⟩
  · rw [hwhole, hpost]
    simp only [List.append_assoc, List.cons_append]
  · rcases List.mem_append.1 hother with hother | hother
    · exact hbefore other hother
    · exact hfront other hother

/-- An operation whose operands have values is the first part without one, if it has none. -/
theorem firstFault_of_operands {e : Expr} {fault : Fault} (before : List Expr)
    (h : e.elaborate = .error fault) (hpost : e.postorder = before ++ [e])
    (hbefore : ∀ part ∈ before, ∃ value, part.elaborate = .ok value) : e.FirstFault fault :=
  ⟨before, e, [], hpost, hbefore, h⟩

/-- An elaboration fails with the fault of the first part that has no value. -/
theorem firstFault_of_elaborate {e : Expr} {fault : Fault} (h : e.elaborate = .error fault) :
    e.FirstFault fault := by
  induction e with
  | number _ | boolean _ | char _ | str _ | identifier _ => cases h
  | not term ih | neg term ih =>
    cases hterm : term.elaborate with
    | error fault' =>
      have hfault : fault' = fault := by
        rw [elaborate, hterm] at h
        exact Except.error.inj h
      exact (ih (hfault ▸ hterm)).append [] (by simp) rfl
    | ok value => exact firstFault_of_operands _ h rfl (elaborate_of_mem_postorder hterm)
  | binary left operator right ihl ihr =>
    cases hleft : left.elaborate with
    | error fault' =>
      have hfault : fault' = fault := by
        rw [elaborate, hleft] at h
        exact Except.error.inj h
      exact (ihl (hfault ▸ hleft)).append [] (by simp) rfl
    | ok l =>
      cases hright : right.elaborate with
      | error fault' =>
        have hfault : fault' = fault := by
          rw [elaborate, hleft, hright] at h
          exact Except.error.inj h
        exact (ihr (hfault ▸ hright)).append left.postorder (elaborate_of_mem_postorder hleft) rfl
      | ok r =>
        refine firstFault_of_operands (left.postorder ++ right.postorder) h ?_ ?_
        · rw [postorder, List.append_assoc]
        · intro part hpart
          rcases List.mem_append.1 hpart with hpart | hpart
          · exact elaborate_of_mem_postorder hleft part hpart
          · exact elaborate_of_mem_postorder hright part hpart

end Expr

open Parse Dialect

/-! ### Reading a phrase -/

/-- The operators of a level. -/
def Level.operators : Level → List String
  | logical => ["&&", "||"]
  | additive => ["+", "-"]
  | multiplicative => ["*", "/"]

/-- The production that reads a phrase. -/
def Phrase.production : Phrase → Production
  | level .logical => .logical
  | level .additive => .additive
  | level .multiplicative => .multiplicative
  | unary => .unary
  | primary => .primary

/-- The operators that make a phrase go on, which are those of its own level and of tighter ones. -/
def Phrase.extending : Phrase → List String
  | level .logical => ["&&", "||", "+", "-", "*", "/"]
  | level .additive => ["+", "-", "*", "/"]
  | level .multiplicative => ["*", "/"]
  | unary | primary => []

theorem Level.rule? (level : Level) :
    full.grammar.rule? (Phrase.level level).production =
      some (.level (Phrase.level level).production level.operand.production level.operators) := by
  cases level <;> rfl

/-- What does not make a level go on makes no operand go on. -/
theorem Level.not_extending {level : Level} {token : Token}
    (h : token.isOperator (Phrase.level level).extending = false) :
    token.isOperator level.operators = false ∧
      token.isOperator level.operand.extending = false := by
  cases level <;> simp_all [Token.isOperator, Phrase.extending, operators, operand]

/-- An operator ends the operand on its left and belongs to its own level. -/
theorem Operator.isOperator_level {operator : Operator} {token : Token}
    (hkind : token.kind = .binaryOperator) (hvalue : token.value = operator.symbol) :
    token.isOperator operator.level.operators = true ∧
      token.isOperator operator.level.operand.extending = false := by
  rw [Token.isOperator, Token.isOperator, hkind, hvalue]
  cases operator <;> decide

/-- A phrase begins with a token that an expression can begin with, and a primary with no sign. -/
theorem Derives.exists_first {phrase : Phrase} {tokens : List Token} {e : Expr}
    (h : Derives phrase tokens e) :
    ∃ token rest, tokens = token :: rest ∧ opensExpr token.kind = true ∧
      (phrase = .primary → token.kind ≠ .unaryOperator ∧ token.kind ≠ .binaryOperator) := by
  induction h with
  | operand h ih =>
    obtain ⟨token, rest, htokens, hopens, -⟩ := ih
    exact ⟨token, rest, htokens, hopens, fun hphrase => by cases hphrase⟩
  | operation _ hleft hkind hvalue hright ihl ihr =>
    obtain ⟨token, rest, htokens, hopens, -⟩ := ihl
    exact ⟨token, _, by rw [htokens, List.cons_append], hopens, fun hphrase => by cases hphrase⟩
  | unsigned h ih =>
    obtain ⟨token, rest, htokens, hopens, -⟩ := ih
    exact ⟨token, rest, htokens, hopens, fun hphrase => by cases hphrase⟩
  | not hkind _ _ | neg hkind _ _ =>
    exact ⟨_, _, rfl, by rw [hkind]; rfl, fun hphrase => by cases hphrase⟩
  | parenthesis hkind _ _ | number _ hkind _ | boolean hkind | char hkind _ | str hkind _
  | identifier hkind =>
    exact ⟨_, _, rfl, by rw [hkind]; rfl, fun _ => by rw [hkind]; decide⟩

/-- A single token is read by one of the productions for primaries. -/
theorem realizes_primary_of_token {c c' : Cursor} {token : Token} {value : Cascade.Expr}
    {p : Production} {kind : TokenKind} (hkind : token.kind = kind) (hspans : c.Spans [token] c')
    (hinside : kind ≠ .eof) (hreader : full.reader kind Production.all.length .primary = p)
    (h : c.here = token → (full.grammar.production p).Realizes (pure (.expr value)) c c.advance) :
    (full.grammar.production .primary).Realizes (pure (.expr value)) c c' := by
  subst hkind
  obtain ⟨hhere, rfl⟩ := (Cursor.spans_singleton hinside).1 hspans
  exact realizes_reader _ (by rw [hhere, hreader]) (h hhere)

/-- The tokens of a phrase are read as the elaboration of the expression that they write, unless an
operator behind them makes the phrase go on. -/
theorem Derives.realizes {phrase : Phrase} {tokens : List Token} {e : Expr}
    (h : Derives phrase tokens e) {c c' : Cursor} (hspans : c.Spans tokens c')
    (hnext : c'.here.isOperator phrase.extending = false) :
    (full.grammar.production phrase.production).Realizes (do return .expr (← e.elaborate)) c
      c' := by
  induction h generalizing c c' with
  | @operand level tokens e h ih =>
    obtain ⟨hlevel, hoperand⟩ := Level.not_extending hnext
    exact realizes_operand level.rule? (ih hspans hoperand) hlevel
  | @operation operator token tokens tokens' left right hleft hkind hvalue hright ihl ihr =>
    obtain ⟨hlevel, hoperand⟩ := Operator.isOperator_level hkind hvalue
    obtain ⟨d, hl, hrest⟩ := Cursor.exists_of_spans_append hspans
    obtain ⟨rfl, hr⟩ := (Cursor.spans_cons (by rw [hkind]; decide)).1 hrest
    simp only [Expr.elaborate, liftM_bind]
    rw [← hvalue]
    exact realizes_operation (Level.rule? _) (ihl hl hoperand) hlevel (ihr hr hnext)
  | unsigned h ih =>
    obtain ⟨token, rest, rfl, -, hsign⟩ := h.exists_first
    obtain ⟨hnot, hminus⟩ := hsign rfl
    obtain ⟨hhere, -⟩ := List.cons.inj hspans
    rw [← hhere] at hnot hminus
    exact realizes_unary_of_primary (ih hspans hnext) hnot hminus
  | not hkind hvalue h ih =>
    obtain ⟨rfl, hterm⟩ := (Cursor.spans_cons (by rw [hkind]; decide)).1 hspans
    rw [Expr.elaborate, liftM_bind, bind_assoc]
    exact realizes_unary_not hkind hvalue (ih hterm hnext)
  | neg hkind hvalue h ih =>
    obtain ⟨rfl, hterm⟩ := (Cursor.spans_cons (by rw [hkind]; decide)).1 hspans
    rw [Expr.elaborate, liftM_bind, bind_assoc]
    refine realizes_unary_minus ?_ (fun _ => Expr.isFolded_of_elaborate) (ih hterm hnext)
    simp [Token.isOperator, hkind, hvalue]
  | parenthesis hopen h hclose ih =>
    obtain ⟨rfl, hrest⟩ := (Cursor.spans_cons (by rw [hopen]; decide)).1 hspans
    obtain ⟨d, hinner, hlast⟩ := Cursor.exists_of_spans_append hrest
    obtain ⟨rfl, rfl⟩ := (Cursor.spans_singleton (by rw [hclose]; decide)).1 hlast
    obtain ⟨token, rest, rfl, hopens, -⟩ := h.exists_first
    obtain ⟨hhere, -⟩ := List.cons.inj hinner
    refine realizes_primary_of_binary hopen (hhere ▸ hopens) (realizes_production rfl ?_) hclose
    refine ih hinner (Token.isOperator_of_kind_ne ?_ _)
    rw [hclose]
    decide
  | number numeral hkind hvalue =>
    refine realizes_primary_of_token hkind hspans (by decide) rfl fun hhere => ?_
    exact realizes_number (hhere ▸ hkind) (hhere ▸ hvalue)
  | boolean hkind =>
    refine realizes_primary_of_token hkind hspans (by decide) rfl fun hhere => ?_
    exact realizes_leaf rfl (hhere ▸ hkind) (hhere ▸ rfl)
  | char hkind hread =>
    refine realizes_primary_of_token hkind hspans (by decide) rfl fun hhere => ?_
    exact realizes_leaf rfl (hhere ▸ hkind) (hhere ▸ hread)
  | str hkind hread =>
    refine realizes_primary_of_token hkind hspans (by decide) rfl fun hhere => ?_
    exact realizes_leaf rfl (hhere ▸ hkind) (hhere ▸ hread)
  | identifier hkind =>
    refine realizes_primary_of_token hkind hspans (by decide) rfl fun hhere => ?_
    exact realizes_leaf rfl (hhere ▸ hkind) (hhere ▸ rfl)

end Written

namespace Dialect

open Written Parse

/-- The operators of the full dialect have the precedence and the associativity of the grammar: in
every state with the tokens of an expression in front, and behind them a token that is no binary
operator, the expression is read as the fold of what is written, from the operands to the
operations, and the tokens behind it are left.  Or else it fails with the fault of the first part
that cannot be folded.  No variable is declared in either case. -/
theorem expression_of_derives {tokens : List Token} {e : Written.Expr}
    (h : Derives (.level .logical) tokens e) {s : State} {next : Token} {rest : List Token}
    (hs : s.cursor.remaining = tokens ++ next :: rest) (hnext : next.kind ≠ .binaryOperator) :
    match e.elaborate with
    | .ok value => ∃ s', (full.grammar.expression .binary).Gives s value s' ∧
        s'.cursor.remaining = next :: rest ∧ s'.symbols = s.symbols
    | .error fault => e.FirstFault fault ∧
        (∃ q, ((full.grammar.expression .binary).run s).result = .error (.fault ⟨fault, q⟩)) ∧
        ((full.grammar.expression .binary).run s).state.symbols = s.symbols := by
  obtain ⟨c', hc'⟩ := Cursor.exists_remaining hs
  obtain ⟨rfl, -⟩ := List.cons.inj hc'
  have hspans : s.cursor.Spans tokens c' := hs.trans (by rw [hc'])
  have hlevel := h.realizes hspans (Token.isOperator_of_kind_ne hnext _)
  have hbinary : (full.grammar.production .binary).Realizes
      (do return .expr (← e.elaborate)) s.cursor c' := realizes_production rfl hlevel
  have hends := hbinary.onlyExpr s.symbols
  cases hvalue : e.elaborate with
  | ok value =>
    rw [hvalue] at hends
    exact ⟨⟨c', s.symbols⟩, hends, hc', rfl⟩
  | error fault =>
    rw [hvalue] at hends
    exact ⟨Expr.firstFault_of_elaborate hvalue, hends.1, hends.2⟩

/-- The tokens of `a - b * c - d`. -/
def differencesTokens : List Token :=
  [.bare .identifier "a", .bare .binaryOperator "-", .bare .identifier "b",
   .bare .binaryOperator "*", .bare .identifier "c", .bare .binaryOperator "-",
   .bare .identifier "d"]

/-- A product is read before a difference, and of two differences the right one is read first. -/
theorem expression_of_derives_differences :
    ∃ s', (full.grammar.expression .binary).Gives
        (State.ofTokens (differencesTokens ++ [.bare .semicolon ";"]) "")
        (.binary (.identifier "a") "-"
          (.binary (.binary (.identifier "b") "*" (.identifier "c")) "-" (.identifier "d"))) s' ∧
      s'.cursor.remaining = [.bare .semicolon ";", Token.endMark Span.nowhere] ∧
      s'.symbols = Symbols.empty := by
  have hidentifier (name : String) :
      Derives .unary [.bare .identifier name] (.identifier name) := .unsigned (.identifier rfl)
  have hproduct : Derives (.level .multiplicative)
      ([.bare .identifier "b"] ++ .bare .binaryOperator "*" :: [.bare .identifier "c"])
      (.binary (.identifier "b") .mul (.identifier "c")) :=
    .operation .mul (hidentifier "b") rfl rfl (.operand (hidentifier "c"))
  have hderives : Derives (.level .logical) differencesTokens
      (.binary (.identifier "a") .sub
        (.binary (.binary (.identifier "b") .mul (.identifier "c")) .sub (.identifier "d"))) :=
    .operand (.operation .sub (.operand (hidentifier "a")) rfl rfl
      (.operation .sub hproduct rfl rfl (.operand (.operand (hidentifier "d")))))
  exact expression_of_derives hderives (s := State.ofTokens _ _) rfl (by decide)

end Dialect

end Cascade
