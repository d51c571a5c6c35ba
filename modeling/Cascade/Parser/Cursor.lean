import Cascade.Token.Basic

/-!
# Cursors

A cursor stands at a token of a row of tokens and knows what lies ahead.  The row ends with an end
mark, and the cursor never goes beyond one, so there is always a current token.

## Main definitions

* `Cursor` : the current token and the tokens behind it.
* `Cursor.ofTokens` : the cursor at the first of some tokens, closed by an end mark.
* `Cursor.advance` : the cursor one token further on.
-/

namespace Cascade

/-- A place in a row of tokens that ends with an end mark. -/
@[ext] structure Cursor where
  /-- The current token. -/
  here : Token
  /-- The tokens behind the current one. -/
  ahead : List Token
  /-- The last token is an end mark. -/
  closed : ((here :: ahead).getLast?.map Token.kind) = some .eof

namespace Cursor

/-- The current token and all that follow it. -/
def remaining (c : Cursor) : List Token :=
  c.here :: c.ahead

/-- Where an end mark goes that is added to a row of tokens: to the end of the last one, or to the
start of the source if there is none. -/
def endPosition (tokens : List Token) (file : String) : Position :=
  match tokens.getLast? with
  | some last => last.span.stop
  | none => ⟨0, file⟩

/-- The tokens with an end mark behind them, unless the last one is an end mark. -/
def close (tokens : List Token) (file : String) : List Token :=
  if tokens.getLast?.map Token.kind = some .eof then tokens
  else
    let position := endPosition tokens file
    tokens ++ [Token.endMark ⟨position, position⟩]

/-- Closing a row of tokens puts an end mark at its end. -/
theorem getLast?_close (tokens : List Token) (file : String) :
    (close tokens file).getLast?.map Token.kind = some .eof := by
  unfold close
  split
  · assumption
  · simp [Token.endMark]

/-- Closing a row of tokens leaves at least one. -/
theorem close_ne_nil (tokens : List Token) (file : String) : close tokens file ≠ [] := by
  intro hnil
  have h := getLast?_close tokens file
  simp [hnil] at h

/-- The cursor at the first of the tokens. -/
def ofTokens (tokens : List Token) (file : String) : Cursor :=
  match h : close tokens file with
  | here :: ahead => ⟨here, ahead, h ▸ getLast?_close tokens file⟩
  | [] => absurd h (close_ne_nil tokens file)

/-- The cursor at the next token.  At an end mark it stays where it is. -/
def advance (c : Cursor) : Cursor :=
  if c.here.kind = .eof then c
  else
    match h : c.ahead with
    | next :: ahead => ⟨next, ahead, by simpa [h] using c.closed⟩
    | [] => c

/-- The cursor does not leave an end mark. -/
theorem advance_of_eof {c : Cursor} (h : c.here.kind = .eof) : c.advance = c := by
  rw [advance, if_pos h]

/-- In front of any other token the cursor leaves one token behind. -/
theorem remaining_advance {c : Cursor} (h : c.here.kind ≠ .eof) :
    c.advance.remaining = c.ahead := by
  rw [advance, if_neg h]
  split
  · rename_i next ahead hahead
    exact hahead.symm
  · rename_i hahead
    have hclosed := c.closed
    simp [hahead] at hclosed
    exact absurd hclosed h

/-- Moving on only takes tokens away from the front. -/
theorem remaining_advance_suffix (c : Cursor) : c.advance.remaining <:+ c.remaining := by
  by_cases h : c.here.kind = .eof
  · exact ⟨[], congrArg remaining (advance_of_eof h)⟩
  · rw [remaining_advance h]
    exact List.suffix_cons _ _

/-- The cursor has all of the tokens in front of it. -/
theorem remaining_ofTokens (tokens : List Token) (file : String) :
    (ofTokens tokens file).remaining = close tokens file := by
  unfold ofTokens
  split
  · rename_i h
    exact h.symm
  · rename_i h
    exact absurd h (close_ne_nil tokens file)

/-- A cursor is known by the tokens it has in front of it. -/
theorem ext_remaining {c c' : Cursor} (h : c.remaining = c'.remaining) : c = c' := by
  obtain ⟨hhere, hahead⟩ := List.cons.inj h
  exact Cursor.ext hhere hahead

end Cursor

end Cascade
