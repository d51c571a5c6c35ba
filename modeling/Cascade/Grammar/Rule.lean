import Cascade.Decimal.Reader
import Cascade.Grammar.Production
import Cascade.Text.Escape
import Cascade.Token.Basic
import Cascade.Tree.Basic

/-!
# Rules

A rule says how a production is read.  Most rules begin with a token of their own and hand over to
another production if they do not find it.

## Main definitions

* `Rule` : the rules.
* `Rule.str`, `Rule.char`, `Rule.boolean`, `Rule.identifier` : the rules for single tokens.
* `Rule.logical`, `Rule.additive`, `Rule.multiplicative` : the rules for binary operators.
-/

namespace Cascade

/-- How a production is read. -/
inductive Rule where
  /-- A choice between branches, or else a `for` loop. -/
  | conditional
  /-- A `for` loop, or else a `while` loop. -/
  | forLoop
  /-- A `while` loop, or else an endless loop. -/
  | whileLoop
  /-- An endless loop, or else a jump out of one. -/
  | loop
  /-- A jump, or else the production that follows it in the cascade. -/
  | jump (target : Jump)
  /-- A declaration, or else an assignment. -/
  | declaration
  /-- An assignment, or else an expression on its own. -/
  | assignment
  /-- Another production. -/
  | forward (target : Production)
  /-- An operand, and perhaps one of the operators with the whole level on its right. -/
  | level (whole operand : Production) (operators : List String)
  /-- A primary with an optional sign in front of it. -/
  | unary
  /-- A statement in parentheses, or else a string. -/
  | parenthesis
  /-- A single token of a kind, or else another production. -/
  | leaf (kind : TokenKind) (read : Token → Except Fault Expr) (otherwise : Production)
  /-- A number, where nothing else is left to try. -/
  | number

/-- The keyword of a jump. -/
def Jump.keyword : Jump → TokenKind
  | .exit => .kwBreak
  | .next => .kwContinue

/-- The production that is tried if a jump is not found. -/
def Jump.otherwise : Jump → Production
  | .exit => .continueJump
  | .next => .declaration

/-- The text between two quotes at the ends. -/
def stripQuotes? (quote : Char) : List Char → Option (List Char)
  | [] => none
  | c :: cs => if c = quote ∧ cs.getLast? = some quote then some cs.dropLast else none

/-- The text that a quoted literal stands for. -/
def readQuoted (quote : Char) (value : String) : Except Fault (List Char) :=
  match stripQuotes? quote value.toList with
  | none => .error (.syntaxError "quoted literal" value)
  | some body =>
    (Text.Escape.decode body).mapError fun mistake => .invalidEscapeSequence mistake.sequence

/-- The string that a token stands for. -/
def readStr (t : Token) : Except Fault Expr := do
  let text ← readQuoted '"' t.value
  return .str (String.ofList text)

/-- The character that a token stands for. -/
def readChar (t : Token) : Except Fault Expr := do
  match ← readQuoted '\'' t.value with
  | [c] => return .char c
  | _ => .error (.syntaxError "single character" t.value)

/-- The truth value that a token stands for. -/
def readBoolean (t : Token) : Except Fault Expr :=
  .ok (.boolean (t.value = "true"))

/-- The variable that a token names. -/
def readIdentifier (t : Token) : Except Fault Expr :=
  .ok (.identifier t.value)

/-- The number that a token stands for. -/
def readNumber (t : Token) : Except Fault Expr :=
  match Decimal.readNumber? t.value with
  | some value => .ok (.number value)
  | none => .error (.numberParseError t.value)

namespace Rule

/-- The entry to the operator levels. -/
def binary : Rule :=
  forward .logical

/-- The loosest operators. -/
def logical : Rule :=
  level .logical .additive ["&&", "||"]

/-- Sums and differences. -/
def additive : Rule :=
  level .additive .multiplicative ["+", "-"]

/-- Products and quotients. -/
def multiplicative : Rule :=
  level .multiplicative .unary ["*", "/"]

/-- A string, or else a character. -/
def str : Rule :=
  leaf .str readStr .char

/-- A character, or else a truth value. -/
def char : Rule :=
  leaf .char readChar .boolean

/-- A truth value, or else an identifier. -/
def boolean : Rule :=
  leaf .bool readBoolean .identifier

/-- An identifier, or else a number. -/
def identifier : Rule :=
  leaf .identifier readIdentifier .number

end Rule

end Cascade
