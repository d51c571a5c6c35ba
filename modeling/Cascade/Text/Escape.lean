/-!
# Escapes in quoted literals

The body of a quoted literal writes six characters as a backslash and a letter.  Every other
character stands for itself, a raw line break included.

## Main definitions

* `Escape.letter?` : the character that a letter stands for behind a backslash.
* `Escape.decode` : the text that the body of a literal stands for.
* `Escape.Mistake` : what makes a body unreadable.
-/

namespace Cascade.Text.Escape

/-- What makes the body of a literal unreadable. -/
inductive Mistake where
  /-- A backslash in front of a character that has no meaning there. -/
  | unknown (letter : Char)
  /-- A backslash at the very end. -/
  | dangling
deriving DecidableEq, Repr

/-- The characters at fault, as they are written in the body. -/
def Mistake.sequence : Mistake → String
  | .unknown letter => String.ofList ['\\', letter]
  | .dangling => "\\"

/-- The character that a letter behind a backslash stands for. -/
def letter? : Char → Option Char
  | 'n' => some '\n'
  | 't' => some '\t'
  | 'r' => some '\r'
  | '\'' => some '\''
  | '"' => some '"'
  | '\\' => some '\\'
  | _ => none

/-- The text that the body of a literal stands for, or its first mistake. -/
def decode : List Char → Except Mistake (List Char)
  | [] => .ok []
  | ['\\'] => .error .dangling
  | '\\' :: l :: cs =>
    match letter? l with
    | none => .error (.unknown l)
    | some d => (decode cs).map (d :: ·)
  | c :: cs => (decode cs).map (c :: ·)

@[simp] theorem decode_nil : decode [] = .ok [] := rfl

@[simp] theorem decode_backslash : decode ['\\'] = .error .dangling := rfl

/-- A backslash takes the next character with it. -/
theorem decode_pair (l : Char) (cs : List Char) :
    decode ('\\' :: l :: cs) =
      match letter? l with
      | none => .error (.unknown l)
      | some d => (decode cs).map (d :: ·) :=
  rfl

/-- A character other than the backslash stands for itself. -/
theorem decode_cons_of_ne {c : Char} (h : c ≠ '\\') (cs : List Char) :
    decode (c :: cs) = (decode cs).map (c :: ·) := by
  rw [decode.eq_def]
  split <;> simp_all

end Cascade.Text.Escape
