import Cascade.Source.Position
import Cascade.Token.Kind

/-!
# Tokens

## Main definitions

* `Token` : a kind, the text it was written with, and where it stands.
* `Token.bare` : a token that comes from no source.
-/

namespace Cascade

/-- A token.  Its text need not be one that the lexer gives to its kind. -/
structure Token where
  /-- What sort of token it is. -/
  kind : TokenKind
  /-- How it was written. -/
  value : String
  /-- Where it stands. -/
  span : Span
deriving DecidableEq, Repr

namespace Token

/-- A token without a place in a source. -/
def bare (kind : TokenKind) (value : String) : Token :=
  ⟨kind, value, Span.nowhere⟩

/-- The mark behind the last token of a source. -/
def endMark (span : Span) : Token :=
  ⟨.eof, "EOF", span⟩

/-- The name of the kind with the text in parentheses. -/
def describe (t : Token) : String :=
  t.kind.tag ++ " (" ++ t.value ++ ")"

/-- Whether the token is one of the given binary operators. -/
def isOperator (t : Token) (operators : List String) : Bool :=
  t.kind = .binaryOperator && operators.contains t.value

end Token

end Cascade
