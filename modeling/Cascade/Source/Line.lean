import Cascade.Text.Bytes

/-!
# The line at an offset

A text is a row of lines, each with the line break that ends it.  This file finds the line that
holds a byte offset.

## Main definitions

* `splitLines` : the lines of a text.
* `Line` : a line, its number and a column in it.
* `lineAt?` : the line that holds an offset.

## Main results

* `flatten_splitLines` : the lines are the whole text.
-/

namespace Cascade

/-- The lines of a text.  Each keeps its line break, and only the last may lack one. -/
def splitLines : List Char → List (List Char)
  | [] => []
  | c :: cs =>
    if c = '\n' then [c] :: splitLines cs
    else
      match splitLines cs with
      | [] => [[c]]
      | line :: lines => (c :: line) :: lines

/-- A column of a line in a source. -/
structure Line where
  /-- The number of the line, counted from one. -/
  number : Nat
  /-- The line with its line break. -/
  text : List Char
  /-- The number of bytes in front of the column. -/
  column : Nat
deriving DecidableEq, Repr

/-- The line that holds an offset, if the first of the lines has the given number. -/
def findLine? (number : Nat) : List (List Char) → Nat → Option Line
  | [], _ => none
  | line :: lines, offset =>
    if offset < Text.byteSize line then some ⟨number, line, offset⟩
    else findLine? (number + 1) lines (offset - Text.byteSize line)

/-- The line that holds a byte offset.  There is none for an offset behind the last byte. -/
def lineAt? (source : String) (offset : Nat) : Option Line :=
  findLine? 1 (splitLines source.toList) offset

/-- The lines of a text, one after the other, are the text. -/
theorem flatten_splitLines (cs : List Char) : (splitLines cs).flatten = cs := by
  induction cs with
  | nil => rfl
  | cons c cs ih =>
    rw [splitLines]
    split
    · simp [ih]
    · split
      · rename_i h
        rw [h] at ih
        simpa using ih
      · rename_i line lines h
        rw [h] at ih
        simpa using ih

end Cascade
