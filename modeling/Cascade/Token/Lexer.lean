import Cascade.Report
import Cascade.Token.Basic
import Cascade.Token.Lexeme

/-!
# From text to tokens

A source is cut into lexemes from the front to the end.  Skipped lexemes leave no token, and an
end mark follows the last one.  A place where no lexeme starts is reported with its first
character.

## Main definitions

* `Lexeme.token?` : the token that a lexeme becomes.
* `tokensFrom` : the tokens of a text that starts at an offset.
* `tokenize` : the tokens of a source.
-/

namespace Cascade

/-- The token that a lexeme at an offset becomes, unless it is skipped. -/
def Lexeme.token? (l : Lexeme) (file : String) (offset : Nat) : Option Token :=
  l.kind?.map fun kind =>
    ⟨kind, String.ofList l.text, Span.between file offset (offset + Text.byteSize l.text)⟩

/-- The tokens of a text that starts at the given offset of its source. -/
def tokensFrom (file : String) (offset : Nat) (cs : List Char) : Except Report (List Token) :=
  match cs with
  | [] => .ok [Token.endMark (Span.between file offset offset)]
  | c :: cs =>
    match _h : Lexeme.first? (c :: cs) with
    | none =>
      .error ⟨.unrecognisedToken (String.singleton c), Position.ofOffset file offset⟩
    | some l =>
      (tokensFrom file (offset + Text.byteSize l.text) l.rest).map
        ((l.token? file offset).toList ++ ·)
termination_by cs.length
decreasing_by exact Lexeme.length_rest_lt _h

/-- The name of a source that was given none. -/
def unnamedSource : String := "shell"

/-- The tokens of a source, or the first place where no lexeme starts. -/
def tokenize (source : String) (file : String) : Except Report (List Token) :=
  tokensFrom file 0 source.toList

/-- Behind the end of a source there is only the end mark. -/
theorem tokensFrom_nil (file : String) (offset : Nat) :
    tokensFrom file offset [] = .ok [Token.endMark (Span.between file offset offset)] := by
  rw [tokensFrom]

/-- A lexeme gives its token, and the rest of the text gives the others. -/
theorem tokensFrom_of_first? (file : String) (offset : Nat) {cs : List Char} {l : Lexeme}
    (h : Lexeme.first? cs = some l) :
    tokensFrom file offset cs =
      (tokensFrom file (offset + Text.byteSize l.text) l.rest).map
        ((l.token? file offset).toList ++ ·) := by
  cases cs with
  | nil => exact absurd (Lexeme.length_rest_lt h) (Nat.not_lt_zero _)
  | cons c cs =>
    rw [tokensFrom]
    split
    · rename_i h'
      exact absurd (h'.symm.trans h) (by simp)
    · rename_i l' h'
      obtain rfl : l' = l := Option.some.inj (h'.symm.trans h)
      rfl

/-- Where no lexeme starts, the first character is reported. -/
theorem tokensFrom_of_first?_eq_none (file : String) (offset : Nat) {c : Char} {cs : List Char}
    (h : Lexeme.first? (c :: cs) = none) :
    tokensFrom file offset (c :: cs) =
      .error ⟨.unrecognisedToken (String.singleton c), Position.ofOffset file offset⟩ := by
  rw [tokensFrom]
  split
  · rfl
  · rename_i l h'
    exact absurd (h.symm.trans h') (by simp)

end Cascade
