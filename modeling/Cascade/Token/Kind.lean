/-!
# Kinds of tokens

## Main definitions

* `TokenKind` : the kinds, in a fixed order.
* `TokenKind.tag` : the upper-case name of a kind.
* `TokenKind.ofTag?` : the kind with a name.
* `reserved?` : the kind of a reserved word.
-/

namespace Cascade

/-- The kinds of tokens. -/
inductive TokenKind where
  /-- The end of the source. -/
  | eof
  | number
  | bool
  | char
  | str
  | identifier
  /-- The logical not. -/
  | unaryOperator
  /-- An arithmetic or logical operator between two operands. -/
  | binaryOperator
  | assign
  | colon
  | semicolon
  | openParen
  | closeParen
  | openCurly
  | closeCurly
  /-- The name of a value type. -/
  | typeName
  | kwLet
  | kwMut
  | kwLoop
  | kwWhile
  | kwFor
  | kwOr
  | kwBreak
  | kwContinue
  | kwIf
  | kwElse
deriving DecidableEq, Repr

namespace TokenKind

/-- Every kind, in order. -/
def all : List TokenKind :=
  [eof, number, bool, char, str, identifier, unaryOperator, binaryOperator, assign, colon,
   semicolon, openParen, closeParen, openCurly, closeCurly, typeName, kwLet, kwMut, kwLoop,
   kwWhile, kwFor, kwOr, kwBreak, kwContinue, kwIf, kwElse]

/-- The upper-case name of a kind. -/
def tag : TokenKind → String
  | eof => "EOF"
  | number => "NUMBER"
  | bool => "BOOL"
  | char => "CHAR"
  | str => "STR"
  | identifier => "IDENTIFIER"
  | unaryOperator => "UNARY_OPERATOR"
  | binaryOperator => "BINARY_OPERATOR"
  | assign => "ASSIGN"
  | colon => "COLON"
  | semicolon => "SEMICOLON"
  | openParen => "OPEN_PAREN"
  | closeParen => "CLOSE_PAREN"
  | openCurly => "OPEN_CURLY"
  | closeCurly => "CLOSE_CURLY"
  | typeName => "TYPE"
  | kwLet => "LET"
  | kwMut => "MUT"
  | kwLoop => "LOOP"
  | kwWhile => "WHILE"
  | kwFor => "FOR"
  | kwOr => "OR"
  | kwBreak => "BREAK"
  | kwContinue => "CONTINUE"
  | kwIf => "IF"
  | kwElse => "ELSE"

/-- The kind with the given name. -/
def ofTag? (tag : String) : Option TokenKind :=
  all.find? fun kind => kind.tag == tag

end TokenKind

/-- The words that are no identifiers, each with its kind. -/
def reservedWords : List (String × TokenKind) :=
  [("let", .kwLet), ("mut", .kwMut), ("loop", .kwLoop), ("while", .kwWhile), ("for", .kwFor),
   ("or", .kwOr), ("break", .kwBreak), ("continue", .kwContinue), ("if", .kwIf),
   ("else", .kwElse), ("true", .bool), ("false", .bool), ("i8", .typeName), ("i16", .typeName),
   ("i32", .typeName), ("i64", .typeName), ("u8", .typeName), ("u16", .typeName),
   ("u32", .typeName), ("u64", .typeName), ("f32", .typeName), ("f64", .typeName),
   ("bool", .typeName), ("char", .typeName), ("str", .typeName)]

/-- The kind of a reserved word. -/
def reserved? (word : String) : Option TokenKind :=
  reservedWords.lookup word

end Cascade
