import Mathlib.Tactic.Common
import Cascade.Proofs.Realization

/-!
# Reading expressions

In the full dialect the words of a written expression are read as the elaboration of the expression,
provided that no binary operator follows them.  A parenthesis around an operand leads back to the
statements, so a few of the rules for statements are needed here; with them come the declarations
and assignments, whose values are expressions.

## Main definitions

* `operation` : an operation on two elaborated operands.
* `Written.Expr.Realized` : the words of an expression are read as its elaboration.

## Main results

* `Dialect.realizes_operand`, `Dialect.realizes_operation` : what a level of operators reads.
* `Written.Expr.realized` : the words of every expression are read as its elaboration.
* `realizes_binding` : the words of a declaration or an assignment are read as its elaboration.
-/

namespace Cascade

open Written Parse Dialect

/-! ### Operators -/

theorem Token.isOperator_of_kind_ne {token : Token} (h : token.kind ≠ .binaryOperator)
    (operators : List String) : token.isOperator operators = false := by
  simp [Token.isOperator, h]

section Levels

variable {c c' d : Cursor} {p operand whole : Production} {operators : List String}
variable {y z : Elaborator Cascade.Expr}

/-- An operation on two elaborated operands, which is folded. -/
def operation (y : Elaborator Cascade.Expr) (operator : String) (z : Elaborator Cascade.Expr) :
    Elaborator Cascade.Expr := do
  let left ← y
  let right ← z
  (Cascade.Expr.binary left operator right).fold

/-- Without an operator behind it, an operand is all there is on a level. -/
theorem Dialect.realizes_operand {dialect : Dialect}
    (hrule : dialect.grammar.rule? p = some (.level whole operand operators))
    (h : (dialect.grammar.production operand).Realizes (do return .expr (← y)) c c')
    (hop : c'.here.isOperator operators = false) :
    (dialect.grammar.production p).Realizes (do return .expr (← y)) c c' := by
  refine realizes_production hrule (h.onlyExpr.bind fun left => realizes_current.step ?_)
  rw [if_neg (by simp [hop])]
  exact realizes_pure _

/-- An operator is folded together with the operands on both sides of it. -/
theorem Dialect.realizes_operation {dialect : Dialect}
    (hrule : dialect.grammar.rule? p = some (.level whole operand operators))
    (hleft : (dialect.grammar.production operand).Realizes (do return .expr (← y)) c d)
    (hop : d.here.isOperator operators = true)
    (hright : (dialect.grammar.production whole).Realizes (do return .expr (← z)) d.advance c') :
    (dialect.grammar.production p).Realizes
      (do return .expr (← operation y d.here.value z)) c c' := by
  simp only [operation, bind_assoc]
  refine realizes_production hrule (hleft.onlyExpr.bind fun left => realizes_current.step ?_)
  rw [if_pos hop]
  refine realizes_advance.step (hright.onlyExpr.bind fun right => ?_)
  exact (realizes_fold _).bind fun value => realizes_pure _

end Levels

section Expressions

variable {c c' d : Cursor}

/-- Behind the signs there is nothing but operators. -/
theorem realizes_binary_of_unary {y : Elaborator Cascade.Expr}
    (h : (full.grammar.production .unary).Realizes (do return .expr (← y)) c c')
    (hnext : c'.here.kind ≠ .binaryOperator) :
    (full.grammar.production .binary).Realizes (do return .expr (← y)) c c' := by
  have hop := Token.isOperator_of_kind_ne hnext
  refine realizes_production rfl ?_
  exact realizes_operand rfl (realizes_operand rfl (realizes_operand rfl h (hop _)) (hop _)) (hop _)

/-- Without a sign in front of it, a primary is read. -/
theorem realizes_unary_of_primary {x : Elaborator Cascade.Stmt}
    (h : (full.grammar.production .primary).Realizes x c c')
    (hnot : c.here.kind ≠ .unaryOperator) (hminus : c.here.kind ≠ .binaryOperator) :
    (full.grammar.production .unary).Realizes x c c' := by
  refine realizes_production rfl (realizes_current.step ?_)
  rw [if_neg hnot, if_neg (by simp [Token.isOperator_of_kind_ne hminus])]
  exact h

/-! ### Single tokens -/

/-- A single token is read by its own rule. -/
theorem realizes_leaf {p otherwise : Production} {wanted : TokenKind}
    {read : Token → Except Fault Cascade.Expr} {value : Cascade.Expr}
    (hrule : full.grammar.rule? p = some (.leaf wanted read otherwise))
    (hkind : c.here.kind = wanted) (hread : read c.here = .ok value) :
    (full.grammar.production p).Realizes (pure (.expr value)) c c.advance := by
  refine realizes_production hrule (realizes_kind.step ?_)
  rw [if_neg (not_not.2 hkind)]
  refine realizes_advance.step (realizes_position.step ?_)
  rw [hread]
  exact (realizes_settle _ (.ok value) []).step (realizes_pure _)

/-- A number is what is left when nothing else is found. -/
theorem realizes_number {numeral : Numeral} (hkind : c.here.kind = .number)
    (hvalue : c.here.value = numeral.text) :
    (full.grammar.production .number).Realizes (pure (.expr (.number numeral.value))) c
      c.advance := by
  refine realizes_production rfl (realizes_current.step ?_)
  rw [if_neg (not_not.2 hkind)]
  have hread : readNumber c.here = .ok (.number numeral.value) := by
    rw [readNumber, hvalue, numeral.reads]
  rw [hread]
  exact (realizes_settle _ (.ok _) []).step (realizes_advance.step (realizes_pure _))

/-- A text between quotes is read back. -/
theorem readQuoted_quote (mark : Char) (text : List Char) :
    readQuoted mark (quote mark text) = .ok text := by
  have hstrip : stripQuotes? mark (quote mark text).toList = some (Text.Escape.encode text) := by
    simp [quote, stripQuotes?]
  simp only [readQuoted, hstrip, Text.Escape.decode_encode]
  rfl

theorem readStr_quote {token : Token} {text : String} (h : token.value = quote '"' text.toList) :
    readStr token = .ok (.str text) := by
  rw [readStr, h, readQuoted_quote]
  change Except.ok (Expr.str (String.ofList text.toList)) = _
  rw [String.ofList_toList]

theorem readChar_quote {token : Token} {value : Char} (h : token.value = quote '\'' [value]) :
    readChar token = .ok (.char value) := by
  rw [readChar, h, readQuoted_quote]
  rfl

theorem readBoolean_text {token : Token} {value : Bool}
    (h : token.value = if value then "true" else "false") :
    readBoolean token = .ok (.boolean value) := by
  rw [readBoolean, h]
  cases value <;> rfl

/-! ### Statements that are expressions -/

/-- Whether an expression can begin with a token of this kind. -/
def opensExpr (kind : TokenKind) : Bool :=
  kind ∈ [.number, .bool, .char, .str, .identifier, .unaryOperator, .binaryOperator, .openParen]

theorem opensExpr_of_reads {e : Written.Expr} (h : c.Reads e.spell c') :
    opensExpr c.here.kind = true := by
  cases e <;>
    simp only [Written.Expr.spell, parenthesized, List.cons_append, Cursor.reads_cons] at h <;>
    rw [h.1.1] <;> rfl

/-- In front of an expression every keyword is missing. -/
theorem reader_of_opensExpr {kind : TokenKind} (h : opensExpr kind = true) :
    full.reader kind Production.all.length .conditional = .assignment := by
  cases kind <;> first | rfl | cases h

theorem statement_full : full.grammar.statement = full.grammar.production .conditional := rfl

/-- A statement realizes what the production realizes that its first token is left to. -/
theorem realizes_statement {x : Elaborator Cascade.Stmt} {kind : TokenKind} {p : Production}
    (hkind : c.here.kind = kind)
    (hreader : full.reader kind Production.all.length .conditional = p)
    (h : (full.grammar.production p).Realizes x c c') : full.grammar.statement.Realizes x c c' := by
  subst hkind
  rw [statement_full]
  exact realizes_reader _ hreader h

/-- An expression that is followed by the end of a statement is a statement. -/
theorem realizes_assignment_of_binary {y : Elaborator Cascade.Expr}
    (h : (full.grammar.production .binary).Realizes (do return .expr (← y)) c d)
    (hkind : d.here.kind ≠ .assign) (hend : terminator.Realizes (pure ()) d c') :
    (full.grammar.production .assignment).Realizes (do return .expr (← y)) c c' := by
  refine realizes_production rfl (h.onlyExpr.bind fun target => realizes_kind.step ?_)
  split
  · contradiction
  · exact hend.step (realizes_pure _)

/-- Parentheses around an expression change nothing. -/
theorem realizes_primary_of_binary {y : Elaborator Cascade.Expr} (hopen : c.here.kind = .openParen)
    (hopens : opensExpr c.advance.here.kind = true)
    (h : (full.grammar.production .binary).Realizes (do return .expr (← y)) c.advance d)
    (hclose : d.here.kind = .closeParen) :
    (full.grammar.production .primary).Realizes (do return .expr (← y)) c d.advance := by
  refine realizes_production rfl (realizes_kind.step ?_)
  rw [if_neg (not_not.2 hopen)]
  refine realizes_advance.step (Realizes.bind (Realizes.onlyExpr ?_) fun _ => realizes_pure _)
  have hstatement : full.grammar.statement.Realizes (do return .expr (← y)) c.advance d := by
    refine realizes_statement rfl (reader_of_opensExpr hopens) ?_
    refine realizes_assignment_of_binary h ?_ (realizes_closeParen hclose)
    rw [hclose]
    decide
  exact hstatement.trail fun stmt => (realizes_expect hclose _).step (realizes_pure _)

/-! ### Signs -/

/-- A sign is folded together with its operand. -/
theorem realizes_unary_not {y : Elaborator Cascade.Expr} (hkind : c.here.kind = .unaryOperator)
    (hvalue : c.here.value = "!")
    (h : (full.grammar.production .primary).Realizes (do return .expr (← y)) c.advance c') :
    (full.grammar.production .unary).Realizes (do
      let term ← y
      return .expr (← (Cascade.Expr.unary "!" term).fold)) c c' := by
  refine realizes_production rfl (realizes_current.step ?_)
  rw [if_pos hkind]
  refine realizes_advance.step ?_
  rw [if_neg (not_not.2 hvalue), hvalue]
  exact h.onlyExpr.bind fun term => (realizes_fold _).bind fun value => realizes_pure _

/-- The negative of a folded term. -/
theorem realizes_negated (term : Cascade.Expr) :
    (negated term).Realizes (do return .expr (← negative term)) c c := by
  cases term
  case number | identifier | unary | binary => exact realizes_pure _
  all_goals exact fun _ => ⟨⟨_, rfl⟩, rfl⟩

theorem realizes_unary_minus {y : Except Fault Cascade.Expr} (hop : c.here.isOperator ["-"] = true)
    (hfolded : ∀ term, y = .ok term → term.IsFolded)
    (h : (full.grammar.production .primary).Realizes (do return .expr (← y)) c.advance c') :
    (full.grammar.production .unary).Realizes (do
      let term ← y
      return .expr (← negative term)) c c' := by
  have hkind : c.here.kind ≠ .unaryOperator := by
    intro hkind
    simp [Token.isOperator, hkind] at hop
  refine realizes_production rfl (realizes_current.step ?_)
  rw [if_neg hkind, if_pos hop]
  refine realizes_advance.step (h.onlyExpr.bind_lift fun term hterm => ?_)
  exact (realizes_fold_of_isFolded (hfolded term hterm)).step (realizes_negated term)

/-! ### Operands in parentheses -/

/-- Whether the words of an expression are read as its elaboration, unless they could go on. -/
def Written.Expr.Realized (e : Written.Expr) : Prop :=
  ∀ ⦃c c' : Cursor⦄, c.Reads e.spell c' → c'.here.kind ≠ .binaryOperator →
    (full.grammar.production .binary).Realizes (do return .expr (← e.elaborate)) c c'

/-- Words in parentheses are read as what they are without them. -/
theorem realizes_parenthesized {e : Written.Expr} (h : e.Realized)
    (hreads : c.Reads (parenthesized e.spell) c') :
    (full.grammar.production .primary).Realizes (do return .expr (← e.elaborate)) c c' := by
  obtain ⟨⟨hopen, -⟩, hrest⟩ := Cursor.reads_cons.1 hreads
  obtain ⟨d, he, ⟨hclose, -⟩, rfl⟩ := Cursor.reads_append.1 hrest
  refine realizes_primary_of_binary hopen (opensExpr_of_reads he) (h he ?_) hclose
  exact ne_of_eq_of_ne hclose (by decide)

/-- Parentheses stand behind no sign. -/
theorem realizes_unary_of_parenthesized {e : Written.Expr} (h : e.Realized)
    (hreads : c.Reads (parenthesized e.spell) c') :
    (full.grammar.production .unary).Realizes (do return .expr (← e.elaborate)) c c' := by
  obtain ⟨⟨hopen, -⟩, -⟩ := Cursor.reads_cons.1 hreads
  refine realizes_unary_of_primary (realizes_parenthesized h hreads) ?_ ?_
  · exact ne_of_eq_of_ne hopen (by decide)
  · exact ne_of_eq_of_ne hopen (by decide)

/-- An operation on operands with signs is read on the level of its operator. -/
theorem realizes_binary_of_operation {y z : Elaborator Cascade.Expr} (operator : Operator)
    (hleft : (full.grammar.production .unary).Realizes (do return .expr (← y)) c d)
    (hkind : d.here.kind = .binaryOperator) (hvalue : d.here.value = operator.symbol)
    (hright : (full.grammar.production .unary).Realizes (do return .expr (← z)) d.advance c')
    (hnext : c'.here.kind ≠ .binaryOperator) :
    (full.grammar.production .binary).Realizes
      (do return .expr (← operation y operator.symbol z)) c c' := by
  have hop : ∀ operators : List String,
      d.here.isOperator operators = operators.contains operator.symbol := by
    intro operators
    simp [Token.isOperator, hkind, hvalue]
  have hlast := Token.isOperator_of_kind_ne hnext
  rw [← hvalue]
  refine realizes_production rfl ?_
  -- An operand goes up to the level of the operator, and the operation from there to the top.
  cases operator with
  | mul | div =>
    have hlevel := realizes_operation (p := .multiplicative) rfl hleft (hop _)
      (realizes_operand rfl hright (hlast _))
    exact realizes_operand rfl (realizes_operand rfl hlevel (hlast _)) (hlast _)
  | add | sub =>
    have hlevel := realizes_operation (p := .additive) rfl (realizes_operand rfl hleft (hop _))
      (hop _) (realizes_operand rfl (realizes_operand rfl hright (hlast _)) (hlast _))
    exact realizes_operand rfl hlevel (hlast _)
  | and | or =>
    have hlevel := realizes_operation (p := .logical) rfl
      (realizes_operand rfl (realizes_operand rfl hleft (hop _)) (hop _)) (hop _)
      (realizes_operand rfl (realizes_operand rfl (realizes_operand rfl hright (hlast _)) (hlast _))
        (hlast _))
    exact hlevel

/-! ### Expressions -/

/-- A single token without a sign is read by one of the productions for primaries. -/
theorem realizes_binary_of_token {value : Cascade.Expr} {p : Production} (kind : TokenKind)
    (hkind : c.here.kind = kind) (hreader : full.reader kind Production.all.length .primary = p)
    (hnot : kind ≠ .unaryOperator) (hminus : kind ≠ .binaryOperator)
    (h : (full.grammar.production p).Realizes (pure (.expr value)) c c')
    (hnext : c'.here.kind ≠ .binaryOperator) :
    (full.grammar.production .binary).Realizes (pure (.expr value)) c c' := by
  subst hkind
  have hunary := realizes_unary_of_primary (realizes_reader _ hreader h) hnot hminus
  exact realizes_binary_of_unary (y := pure value) hunary hnext

/-- The words of every expression are read as its elaboration. -/
theorem Written.Expr.realized (e : Written.Expr) : e.Realized := by
  intro c c' hreads hnext
  induction e generalizing c c' with
  | number numeral =>
    obtain ⟨⟨hkind, hvalue⟩, rfl⟩ := hreads
    exact realizes_binary_of_token .number hkind rfl (by decide) (by decide)
      (realizes_number hkind hvalue) hnext
  | boolean value =>
    obtain ⟨⟨hkind, hvalue⟩, rfl⟩ := hreads
    exact realizes_binary_of_token .bool hkind rfl (by decide) (by decide)
      (realizes_leaf rfl hkind (readBoolean_text hvalue)) hnext
  | char value =>
    obtain ⟨⟨hkind, hvalue⟩, rfl⟩ := hreads
    exact realizes_binary_of_token .char hkind rfl (by decide) (by decide)
      (realizes_leaf rfl hkind (readChar_quote hvalue)) hnext
  | str value =>
    obtain ⟨⟨hkind, hvalue⟩, rfl⟩ := hreads
    exact realizes_binary_of_token .str hkind rfl (by decide) (by decide)
      (realizes_leaf rfl hkind (readStr_quote hvalue)) hnext
  | identifier name =>
    obtain ⟨⟨hkind, hvalue⟩, rfl⟩ := hreads
    exact realizes_binary_of_token .identifier hkind rfl (by decide) (by decide)
      (realizes_leaf rfl hkind (by rw [readIdentifier, hvalue])) hnext
  | not term ih =>
    obtain ⟨⟨hkind, hvalue⟩, hterm⟩ := Cursor.reads_cons.1 hreads
    refine realizes_binary_of_unary ?_ hnext
    rw [Written.Expr.elaborate, liftM_bind, bind_assoc]
    exact realizes_unary_not hkind hvalue (realizes_parenthesized ih hterm)
  | neg term ih =>
    obtain ⟨⟨hkind, hvalue⟩, hterm⟩ := Cursor.reads_cons.1 hreads
    have hop : c.here.isOperator ["-"] = true := by simp [Token.isOperator, hkind, hvalue]
    refine realizes_binary_of_unary ?_ hnext
    rw [Written.Expr.elaborate, liftM_bind, bind_assoc]
    exact realizes_unary_minus hop (fun _ => Written.Expr.isFolded_of_elaborate)
      (realizes_parenthesized ih hterm)
  | binary left operator right ihl ihr =>
    obtain ⟨d, hleft, hrest⟩ := Cursor.reads_append.1 hreads
    obtain ⟨⟨hkind, hvalue⟩, hright⟩ := Cursor.reads_cons.1 hrest
    simp only [Written.Expr.elaborate, liftM_bind]
    refine realizes_binary_of_operation operator ?_ hkind hvalue ?_ hnext
    · exact realizes_unary_of_parenthesized ihl hleft
    · exact realizes_unary_of_parenthesized ihr hright

/-- A value is folded already when it is read, and folding it once more changes nothing. -/
theorem realizes_folded {β : Type} {f : Cascade.Expr → Parse β} {g : Cascade.Expr → Elaborator β}
    {y : Except Fault Cascade.Expr}
    (h : (full.grammar.production .binary).Realizes (do return .expr (← y)) c d)
    (hfolded : ∀ value, y = .ok value → value.IsFolded)
    (hf : ∀ value, value.IsFolded → (f value).Realizes (g value) d c') :
    (expression full.grammar.production .binary >>= fun value => fold value >>= f).Realizes
      (liftM y >>= g) c c' := by
  refine h.onlyExpr.bind_lift fun value hvalue => ?_
  exact (realizes_fold_of_isFolded (hfolded value hvalue)).step (hf value (hfolded value hvalue))

theorem realizes_value {β : Type} {f : Cascade.Expr → Parse β} {g : Cascade.Expr → Elaborator β}
    (e : Written.Expr) (hreads : c.Reads e.spell d) (hnext : d.here.kind ≠ .binaryOperator)
    (hf : ∀ value, value.IsFolded → (f value).Realizes (g value) d c') :
    (expression full.grammar.production .binary >>= fun value => fold value >>= f).Realizes
      (liftM e.elaborate >>= g) c c' :=
  realizes_folded (e.realized hreads hnext) (fun _ => Written.Expr.isFolded_of_elaborate) hf

theorem realizes_condition (e : Written.Expr) (hreads : c.Reads e.spell c')
    (hnext : c'.here.kind ≠ .binaryOperator) :
    (condition full.grammar.production).Realizes (liftM e.elaborate) c c' := by
  have h := realizes_value e hreads hnext fun value _ => realizes_pure value
  simpa only [condition, bind_pure] using h

/-! ### Declarations and assignments -/

/-- A new value for a variable, up to the end of the statement. -/
theorem realizes_assign {name : String} {value : Written.Expr}
    (hreads : c.Reads (spellAssignment name value) d) (hnext : d.here.kind ≠ .binaryOperator)
    (hend : terminator.Realizes (pure ()) d c') :
    (full.grammar.production .assignment).Realizes (Binding.assign name value).elaborate c c' := by
  obtain ⟨hname, ⟨hassign, -⟩, hvalue⟩ := hreads
  have htarget := (Written.Expr.identifier name).realized (c := c) ⟨hname, rfl⟩
    (ne_of_eq_of_ne hassign (by decide))
  refine realizes_production rfl (htarget.onlyExpr.step (realizes_kind.step ?_))
  rw [hassign]
  refine realizes_advance.step (realizes_position.step ?_)
  refine realizes_value value hvalue hnext fun value hfolded => ?_
  exact Realizes.checkAssignment hfolded (hend.step (realizes_pure _))

theorem realizes_mutability {isMutable : Bool}
    (hreads : c.Reads (if isMutable then [.mk .kwMut "mut"] else []) d)
    (hnext : d.here.kind ≠ .kwMut) : mutability.Realizes (pure isMutable) c d := by
  refine realizes_kind.step ?_
  cases isMutable with
  | false =>
    obtain rfl := hreads
    rw [if_neg hnext]
    exact realizes_pure _
  | true =>
    obtain ⟨⟨hmut, -⟩, rfl⟩ := hreads
    rw [if_pos hmut]
    exact realizes_advance.step (realizes_pure _)

theorem realizes_declaredType {type : ValueType} (hkind : c.here.kind = .typeName)
    (hvalue : c.here.value = type.name) : declaredType.Realizes (pure type) c c.advance := by
  refine (realizes_expect hkind _).step ?_
  have htype : ValueType.ofName c.here.value = .ok type := by
    rw [ValueType.ofName, hvalue, ValueType.ofName?_name]
  rw [htype]
  exact realizes_settle _ (.ok type) []

/-- A declaration is read as its elaboration, whatever words its value is written with. -/
theorem realizes_declaration {name : String} {type : ValueType} (isMutable : Bool)
    {words : List Word} {y : Except Fault Cascade.Expr}
    (hvalue : ∀ ⦃d e : Cursor⦄, d.Reads words e → e.here.kind ≠ .binaryOperator →
      (full.grammar.production .binary).Realizes (do return .expr (← y)) d e)
    (hfolded : ∀ value, y = .ok value → value.IsFolded)
    (hreads : c.Reads (.mk .kwLet "let" :: ((if isMutable then [.mk .kwMut "mut"] else []) ++
      .mk .identifier name :: .mk .colon ":" :: .mk .typeName type.name :: .mk .assign "=" ::
        (words ++ [.mk .semicolon ";"]))) c') :
    (full.grammar.production .declaration).Realizes (do
      let value ← y
      ((← get).checkValue type value).outcome
      modify fun symbols => symbols.declare name type
      return .declare name type isMutable value) c c' := by
  simp only [Cursor.reads_cons, Cursor.reads_append, Cursor.reads_nil] at hreads
  obtain ⟨⟨hlet, -⟩, d, hmut, ⟨hname, rfl⟩, ⟨hcolon, -⟩, htype, ⟨hassign, -⟩, e, hwords,
    ⟨hsemicolon, -⟩, rfl⟩ := hreads
  refine realizes_production rfl (realizes_kind.step ?_)
  rw [if_neg (not_not.2 hlet)]
  refine realizes_advance.step ?_
  refine (realizes_mutability hmut (ne_of_eq_of_ne hname (by decide))).step ?_
  refine (realizes_expect hname _).step ((realizes_expect hcolon _).step ?_)
  refine (realizes_declaredType htype.1 htype.2).step ((realizes_expect hassign _).step ?_)
  refine realizes_position.step ?_
  have hnext : e.here.kind ≠ .binaryOperator := ne_of_eq_of_ne hsemicolon (by decide)
  refine realizes_folded (hvalue hwords hnext) hfolded fun value hvalue => ?_
  refine Realizes.checkValue hvalue ((realizes_expect hsemicolon _).step ?_)
  exact (realizes_declare _ _).bind fun _ => realizes_pure _

/-- The words of a declaration or an assignment are read as its elaboration. -/
theorem realizes_binding (binding : Binding) (hreads : c.Reads binding.spell c') :
    (full.grammar.production .declaration).Realizes binding.elaborate c c' := by
  cases binding with
  | declare name type isMutable value =>
    exact realizes_declaration isMutable value.realized (fun _ => Written.Expr.isFolded_of_elaborate) hreads
  | assign name value =>
    obtain ⟨d, hassign, ⟨hsemicolon, -⟩, rfl⟩ := Cursor.reads_append.1 hreads
    refine realizes_reader 1 (by rw [hassign.1.1]) ?_
    exact realizes_assign hassign (ne_of_eq_of_ne hsemicolon (by decide))
      (realizes_semicolon hsemicolon)

end Expressions

end Cascade
