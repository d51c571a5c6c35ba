import Mathlib.Tactic.Common
import Cascade.Parser.Run
import Cascade.Proofs.Folding

/-!
# Written programs

A program as it is written, before anything is folded or checked.  It can be spelled out as a row of
words, with parentheses around every operand, and it can be elaborated: its tree is built in source
order, every expression is folded, every value is checked against the variables declared so far, and
the first fault ends it.

## Main definitions

* `Written.Expr`, `Written.Binding`, `Written.Stmt` : written programs.
* `Written.Word`, `Written.lay` : words, and the tokens that they make at given places.
* `Written.Stmt.spell` and the others like it : the words of a program.
* `Written.Elaborator` : a computation that declares variables and may end with a fault.
* `Written.Stmt.elaborate` and the others like it : the tree of a program.

## Main results

* `Text.Escape.decode_encode` : what is escaped is read back.
* `Written.Expr.isFolded_of_elaborate` : there is nothing left to fold in an elaborated expression.
-/

namespace Cascade

namespace Text.Escape

/-! ### Escaping -/

/-- The characters that stand for one character between quotes. -/
def encodeChar (c : Char) : List Char :=
  match c with
  | '\n' => ['\\', 'n']
  | '\t' => ['\\', 't']
  | '\r' => ['\\', 'r']
  | '\'' => ['\\', '\'']
  | '"' => ['\\', '"']
  | '\\' => ['\\', '\\']
  | c => [c]

/-- The body of the literal that stands for a text. -/
def encode (text : List Char) : List Char :=
  text.flatMap encodeChar

theorem decode_encodeChar_append (c : Char) (cs : List Char) :
    decode (encodeChar c ++ cs) = (decode cs).map (c :: ·) := by
  unfold encodeChar
  split
  case h_7 h => exact decode_cons_of_ne h cs
  all_goals rfl

/-- An escaped text is read back as it was. -/
theorem decode_encode (text : List Char) : decode (encode text) = .ok text := by
  induction text with
  | nil => rfl
  | cons c cs ih =>
    rw [encode, List.flatMap_cons, decode_encodeChar_append, ← encode, ih]
    rfl

end Text.Escape

namespace Written

/-! ### Words -/

/-- A token that has no place yet and is no end mark. -/
structure Word where
  /-- What sort of token it is. -/
  kind : TokenKind
  /-- How it is written. -/
  text : String
  /-- The end mark is left to the parser. -/
  inside : kind ≠ .eof := by decide

/-- The tokens that words make at the given places. -/
def lay (place : Nat → Span) (words : List Word) : List Token :=
  words.mapIdx fun i word => ⟨word.kind, word.text, place i⟩

/-- A text between quotes. -/
def quote (mark : Char) (text : List Char) : String :=
  String.ofList (mark :: (Text.Escape.encode text ++ [mark]))

/-- Words in parentheses. -/
def parenthesized (words : List Word) : List Word :=
  .mk .openParen "(" :: (words ++ [.mk .closeParen ")"])

/-- Words in braces. -/
def braced (words : List Word) : List Word :=
  .mk .openCurly "\x7b" :: (words ++ [.mk .closeCurly "\x7d"])

/-! ### Programs -/

/-- The binary operators. -/
inductive Operator where
  | add
  | sub
  | mul
  | div
  | and
  | or
deriving DecidableEq, Repr

/-- How an operator is written. -/
def Operator.symbol : Operator → String
  | add => "+"
  | sub => "-"
  | mul => "*"
  | div => "/"
  | and => "&&"
  | or => "||"

/-- A text that can be read as a number. -/
structure Numeral where
  /-- How the number is written. -/
  text : String
  /-- The number. -/
  value : Float
  /-- The text is read as the number. -/
  reads : Decimal.readNumber? text = some value

/-- Expressions as they are written. -/
inductive Expr where
  | number (numeral : Numeral)
  | boolean (value : Bool)
  | char (value : Char)
  | str (value : String)
  | identifier (name : String)
  | not (term : Expr)
  | neg (term : Expr)
  | binary (left : Expr) (operator : Operator) (right : Expr)

/-- Declarations and assignments as they are written. -/
inductive Binding where
  | declare (name : String) (type : ValueType) (isMutable : Bool) (value : Expr)
  | assign (name : String) (value : Expr)

mutual

/-- Statements as they are written. -/
inductive Stmt where
  | expr (value : Expr)
  | bind (binding : Binding)
  | loop (body : List Stmt) (fallback : Option (List Stmt))
  | whileLoop (condition : Expr) (body : List Stmt) (fallback : Option (List Stmt))
  /-- A loop whose update gives a new value to a variable. -/
  | forLoop (init : Binding) (condition : Expr) (name : String) (update : Expr)
      (body : List Stmt) (fallback : Option (List Stmt))
  | jump (target : Jump)
  | conditional (condition : Expr) (body : List Stmt) (rest : Branches)

/-- The branches of a conditional behind its first one. -/
inductive Branches where
  | done
  /-- A last resort, without a condition. -/
  | last (body : List Stmt)
  | next (condition : Expr) (body : List Stmt) (rest : Branches)

end

/-! ### Spelling -/

/-- The words of an expression, with parentheses around every operand. -/
def Expr.spell : Expr → List Word
  | number numeral => [.mk .number numeral.text]
  | boolean value => [.mk .bool (if value then "true" else "false")]
  | char value => [.mk .char (quote '\'' [value])]
  | str value => [.mk .str (quote '"' value.toList)]
  | identifier name => [.mk .identifier name]
  | not term => .mk .unaryOperator "!" :: parenthesized term.spell
  | neg term => .mk .binaryOperator "-" :: parenthesized term.spell
  | binary left operator right =>
    parenthesized left.spell ++ .mk .binaryOperator operator.symbol :: parenthesized right.spell

/-- The words that give a value to a variable, up to the end of the statement. -/
def spellAssignment (name : String) (value : Expr) : List Word :=
  .mk .identifier name :: .mk .assign "=" :: value.spell

/-- The words of a declaration or an assignment. -/
def Binding.spell : Binding → List Word
  | declare name type isMutable value =>
    .mk .kwLet "let" :: ((if isMutable then [.mk .kwMut "mut"] else []) ++
      .mk .identifier name :: .mk .colon ":" :: .mk .typeName type.name :: .mk .assign "=" ::
        (value.spell ++ [.mk .semicolon ";"]))
  | assign name value => spellAssignment name value ++ [.mk .semicolon ";"]

/-- The keyword of a jump. -/
def jumpWord : Jump → Word
  | .exit => .mk .kwBreak "break"
  | .next => .mk .kwContinue "continue"

mutual

/-- The words of a statement. -/
def Stmt.spell : Stmt → List Word
  | .expr value => value.spell ++ [.mk .semicolon ";"]
  | .bind binding => binding.spell
  | .loop body fallback => .mk .kwLoop "loop" :: (braced (spellBody body) ++ spellFallback fallback)
  | .whileLoop condition body fallback =>
    .mk .kwWhile "while" ::
      (condition.spell ++ (braced (spellBody body) ++ spellFallback fallback))
  | .forLoop init condition name update body fallback =>
    .mk .kwFor "for" :: .mk .openParen "(" ::
      (init.spell ++ (condition.spell ++ .mk .semicolon ";" ::
        (spellAssignment name update ++ .mk .closeParen ")" ::
          (braced (spellBody body) ++ spellFallback fallback))))
  | .jump target => [jumpWord target, .mk .semicolon ";"]
  | .conditional condition body rest =>
    .mk .kwIf "if" :: (condition.spell ++ (braced (spellBody body) ++ rest.spell))

/-- The words of a row of statements. -/
def spellBody : List Stmt → List Word
  | [] => []
  | stmt :: stmts => stmt.spell ++ spellBody stmts

/-- The words of the fallback of a loop. -/
def spellFallback : Option (List Stmt) → List Word
  | none => []
  | some body => .mk .kwOr "or" :: braced (spellBody body)

/-- The words of the branches behind the first one. -/
def Branches.spell : Branches → List Word
  | .done => []
  | .last body => .mk .kwElse "else" :: braced (spellBody body)
  | .next condition body rest =>
    .mk .kwElse "else" :: .mk .kwIf "if" ::
      (condition.spell ++ (braced (spellBody body) ++ rest.spell))

end

/-! ### Elaboration -/

/-- A computation that declares variables and may end with a fault.  What was declared before the
fault stays. -/
abbrev Elaborator := ExceptT Fault (StateM Symbols)

/-- The negative of a folded term.  A number changes its sign, an identifier or an operation is
taken from zero, and anything else has no negative. -/
def negative : Cascade.Expr → Except Fault Cascade.Expr
  | .number value => .ok (.number (-value))
  | .identifier name => .ok (.binary (.number 0.0) "-" (.identifier name))
  | .unary operator term => .ok (.binary (.number 0.0) "-" (.unary operator term))
  | .binary left operator right =>
    .ok (.binary (.number 0.0) "-" (.binary left operator right))
  | other => .error (.invalidNegativeTerm (other.outline 0))

/-- The tree of an expression, folded from the operands to the operation. -/
def Expr.elaborate : Expr → Except Fault Cascade.Expr
  | number numeral => .ok (.number numeral.value)
  | boolean value => .ok (.boolean value)
  | char value => .ok (.char value)
  | str value => .ok (.str value)
  | identifier name => .ok (.identifier name)
  | not term => do
    let term ← term.elaborate
    (Cascade.Expr.unary "!" term).fold
  | neg term => do
    let term ← term.elaborate
    negative term
  | binary left operator right => do
    let left ← left.elaborate
    let right ← right.elaborate
    (Cascade.Expr.binary left operator.symbol right).fold

/-- The tree of a declaration or an assignment, whose value has to be accepted.  A variable is
declared after its own value. -/
def Binding.elaborate : Binding → Elaborator Cascade.Stmt
  | declare name type isMutable value => do
    let value ← value.elaborate
    ((← get).checkValue type value).outcome
    modify fun symbols => symbols.declare name type
    return .declare name type isMutable value
  | assign name value => do
    let value ← value.elaborate
    let _ ← ((← get).checkAssignment name value).outcome
    return .assign name value

mutual

/-- The tree of a statement. -/
def Stmt.elaborate : Stmt → Elaborator Cascade.Stmt
  | .expr value => do
    return .expr (← value.elaborate)
  | .bind binding => binding.elaborate
  | .loop body fallback => do
    let body ← elaborateBody body
    let fallback ← elaborateFallback fallback
    return .expr (.loop body fallback)
  | .whileLoop condition body fallback => do
    let condition ← condition.elaborate
    let body ← elaborateBody body
    let fallback ← elaborateFallback fallback
    return .expr (.whileLoop condition body fallback)
  | .forLoop init condition name update body fallback => do
    let init ← init.elaborate
    let condition ← condition.elaborate
    let update ← (Binding.assign name update).elaborate
    let body ← elaborateBody body
    let fallback ← elaborateFallback fallback
    return .expr (.forLoop init condition update body fallback)
  | .jump target => return .expr (.jump target)
  | .conditional condition body rest => do
    let condition ← condition.elaborate
    let body ← elaborateBody body
    let rest ← rest.elaborate 0
    return .expr (.conditional (.mk (some condition) none body :: rest))

/-- The trees of a row of statements. -/
def elaborateBody : List Stmt → Elaborator (List Cascade.Stmt)
  | [] => return []
  | stmt :: stmts => do
    let stmt ← stmt.elaborate
    let stmts ← elaborateBody stmts
    return stmt :: stmts

/-- The trees of the fallback of a loop. -/
def elaborateFallback : Option (List Stmt) → Elaborator (Option (List Cascade.Stmt))
  | none => return none
  | some body => do
    return some (← elaborateBody body)

/-- The branches behind the one at the given index, each linked to the one before it. -/
def Branches.elaborate : Branches → Nat → Elaborator (List Branch)
  | .done, _ => return []
  | .last body, index => do
    let body ← elaborateBody body
    return [.mk none (some index) body]
  | .next condition body rest, index => do
    let condition ← condition.elaborate
    let body ← elaborateBody body
    let rest ← rest.elaborate (index + 1)
    return .mk (some condition) (some index) body :: rest

end

/-- A sequence succeeds if its parts do. -/
theorem exists_of_bind {α β : Type} {x : Except Fault α} {f : α → Except Fault β} {b : β}
    (h : x >>= f = .ok b) : ∃ a, x = .ok a ∧ f a = .ok b := by
  cases x with
  | error fault => cases h
  | ok a => exact ⟨a, rfl, h⟩

/-- The negative of a folded term is folded. -/
theorem isFolded_of_negative {term value : Cascade.Expr} (hterm : term.IsFolded)
    (h : negative term = .ok value) : value.IsFolded := by
  unfold negative at h
  split at h <;> cases h
  · trivial
  · exact ⟨trivial, hterm, .inr rfl⟩
  · exact ⟨trivial, hterm, .inr rfl⟩
  · exact ⟨trivial, hterm, .inr rfl⟩

/-- Nothing is left to fold in an elaborated expression. -/
theorem Expr.isFolded_of_elaborate {e : Expr} {value : Cascade.Expr} (h : e.elaborate = .ok value) :
    value.IsFolded := by
  induction e generalizing value with
  | number _ | boolean _ | char _ | str _ | identifier _ =>
    cases h
    trivial
  | not term _ =>
    obtain ⟨t, -, hfold⟩ := exists_of_bind h
    exact Cascade.Expr.isFolded_of_fold hfold
  | neg term ih =>
    obtain ⟨t, ht, hneg⟩ := exists_of_bind h
    exact isFolded_of_negative (ih ht) hneg
  | binary left operator right _ _ =>
    obtain ⟨l, -, h⟩ := exists_of_bind h
    obtain ⟨r, -, hfold⟩ := exists_of_bind h
    exact Cascade.Expr.isFolded_of_fold hfold

end Written

end Cascade
