import Cascade.Decimal.Positional
import Cascade.Text.Quoted

/-!
# Faults

Everything that can be wrong with a program, as a cause with its details.  The wording of the
messages stands here and nowhere else.

## Main definitions

* `Fault` : the causes.
* `Fault.name`, `Fault.message` : how a fault is called and described.
* `Fault.category` : the family a fault belongs to.
* `Fault.tip?` : the advice that goes with a fault.
-/

namespace Cascade

open Decimal (numberText)
open Text (quoted)

/-- The families of faults. -/
inductive Category where
  | syntactic
  | arithmetic
  | operandKind
  | range
  | kindMismatch
deriving DecidableEq, Repr

/-- The name under which a family is reported. -/
def Category.name : Category → String
  | .syntactic => "Syntax"
  | .arithmetic => "Arithmetic"
  | .operandKind => "OperandKind"
  | .range => "Range"
  | .kindMismatch => "KindMismatch"

/-- What is wrong with a program. -/
inductive Fault where
  /-- No lexeme starts with these characters. -/
  | unrecognisedToken (token : String)
  /-- A token where an expression has to start. -/
  | unexpectedToken (token : String)
  /-- Something else than the grammar asks for. -/
  | syntaxError (expected found : String)
  /-- A number token that does not read as a number. -/
  | numberParseError (token : String)
  /-- A backslash in front of something that is not an escape. -/
  | invalidEscapeSequence (sequence : String)
  /-- A unary operator other than the logical not. -/
  | invalidUnaryOperator (operator : String)
  /-- A minus sign in front of something that cannot be negated. -/
  | invalidNegativeTerm (term : String)
  /-- A statement where only an expression is acceptable. -/
  | invalidParenthesis (statement : String)
  /-- A number divided by the number zero. -/
  | divisionByZero (dividend : String)
  /-- An operator that literals of these kinds do not have. -/
  | invalidOperator (operator left right : String)
  /-- Operands that no operator combines. -/
  | invalidOperands (operator left right : String)
  /-- A number outside the bounds of its declared type. -/
  | outOfRange (type : String) (min max value : Float)
  /-- A value of another kind than its declared type asks for. -/
  | kindMismatch (expected received : String)
  /-- A variable whose type does not go with the declared one. -/
  | typeMismatch (expected received : String)
  /-- A type name that names no type. -/
  | unknownType (type : String)
  /-- A variable without a declaration. -/
  | variableNotDeclared (name : String)
  /-- A production that the grammar has no rule for. -/
  | unregisteredProduction (production : String)
  /-- A grammar that has no production to start from. -/
  | noRootProduction

namespace Fault

/-- The name of the cause. -/
def name : Fault → String
  | unrecognisedToken _ => "UnrecognisedToken"
  | unexpectedToken _ => "UnexpectedToken"
  | syntaxError _ _ => "SyntaxError"
  | numberParseError _ => "NumberParseError"
  | invalidEscapeSequence _ => "InvalidEscapeSequence"
  | invalidUnaryOperator _ => "InvalidUnaryOperator"
  | invalidNegativeTerm _ => "InvalidNegativeTerm"
  | invalidParenthesis _ => "InvalidParenthesis"
  | divisionByZero _ => "DivisionByZero"
  | invalidOperator _ _ _ => "InvalidOperator"
  | invalidOperands _ _ _ => "InvalidOperands"
  | outOfRange _ _ _ _ => "OutOfRange"
  | kindMismatch _ _ => "KindMismatch"
  | typeMismatch _ _ => "TypeMismatch"
  | unknownType _ => "UnknownType"
  | variableNotDeclared _ => "VariableNotDeclared"
  | unregisteredProduction _ => "UnregisteredProduction"
  | noRootProduction => "NoRootProduction"

/-- The description of the cause.  Text that comes from the program is quoted where it stands for
itself. -/
def message : Fault → String
  | unrecognisedToken token => "unrecognised token: " ++ quoted token
  | unexpectedToken token => "unexpected token: " ++ quoted token
  | syntaxError expected found => "expected " ++ expected ++ ", found " ++ quoted found
  | numberParseError token => "error parsing number: " ++ quoted token
  | invalidEscapeSequence sequence => "invalid escape sequence " ++ quoted sequence
  | invalidUnaryOperator operator => "invalid unary operator " ++ quoted operator
  | invalidNegativeTerm term => "invalid or not supported negative term: " ++ term
  | invalidParenthesis statement => "invalid parenthesis expression: " ++ statement
  | divisionByZero dividend => "trying to divide " ++ dividend ++ " by zero"
  | invalidOperator operator left right =>
    "invalid operator " ++ quoted operator ++ " for " ++ left ++ " and " ++ right
  | invalidOperands operator left right =>
    "invalid operands " ++ left ++ " " ++ operator ++ " " ++ right
  | outOfRange type min max value =>
    "expected valid " ++ type ++ " value in [" ++ numberText min ++ ", " ++ numberText max ++
      "], got " ++ numberText value
  | kindMismatch expected received =>
    "expected valid " ++ expected ++ " value, got " ++ received
  | typeMismatch expected received =>
    "types do not match: expected " ++ quoted expected ++ ", received " ++ quoted received
  | unknownType type => "unknown type " ++ type ++ " found"
  | variableNotDeclared name => "variable " ++ quoted name ++ " not declared"
  | unregisteredProduction production => "no handler registered for production " ++ production
  | noRootProduction => "no root production registered"

/-- The family of the cause. -/
def category : Fault → Category
  | unrecognisedToken _ => .syntactic
  | unexpectedToken _ => .syntactic
  | syntaxError _ _ => .syntactic
  | numberParseError _ => .syntactic
  | invalidEscapeSequence _ => .syntactic
  | invalidUnaryOperator _ => .syntactic
  | invalidNegativeTerm _ => .syntactic
  | invalidParenthesis _ => .syntactic
  | unregisteredProduction _ => .syntactic
  | noRootProduction => .syntactic
  | divisionByZero _ => .arithmetic
  | invalidOperator _ _ _ => .operandKind
  | invalidOperands _ _ _ => .operandKind
  | outOfRange _ _ _ _ => .range
  | kindMismatch _ _ => .kindMismatch
  | typeMismatch _ _ => .kindMismatch
  | unknownType _ => .kindMismatch
  | variableNotDeclared _ => .kindMismatch

/-- The advice that goes with the cause. -/
def tip? : Fault → Option String
  | unrecognisedToken _ => none
  | unexpectedToken token => some ("Unexpected token: `" ++ token ++ "`, expected an expression")
  | syntaxError expected found => some ("Expected " ++ expected ++ ", found `" ++ found ++ "`")
  | numberParseError token => some ("Invalid number: `" ++ token ++ "`")
  | invalidEscapeSequence sequence =>
    some ("Invalid escape sequence `" ++ sequence ++
      "`, expected one of \\n \\t \\r \\' \\\" \\\\")
  | invalidUnaryOperator operator =>
    some ("Unary operator `" ++ operator ++ "` is not supported, only `!` is")
  | invalidNegativeTerm term => some ("Cannot negate `" ++ term ++ "`")
  | invalidParenthesis statement =>
    some ("`" ++ statement ++ "` cannot be used as a parenthesized expression")
  | divisionByZero dividend => some ("Trying to divide `" ++ dividend ++ "` by zero")
  | invalidOperator operator left right =>
    some ("Invalid operator `" ++ operator ++ "` for " ++ left ++ " and " ++ right)
  | invalidOperands operator left right =>
    some ("Invalid operands `" ++ left ++ "` " ++ operator ++ " `" ++ right ++ "`")
  | outOfRange type min max value => some (outOfRange type min max value).message
  | kindMismatch expected received => some (kindMismatch expected received).message
  | typeMismatch expected received =>
    some ("Expected type `" ++ expected ++ "`, received `" ++ received ++ "`")
  | unknownType type => some ("Unknown type `" ++ type ++ "` found")
  | variableNotDeclared name => some ("Variable `" ++ name ++ "` not declared")
  | unregisteredProduction production =>
    some ("No handler registered for `" ++ production ++ "`")
  | noRootProduction =>
    some "The grammar has no root production, register one before parsing"

end Fault

end Cascade
