import Cascade.Fault
import Cascade.Source.Line
import Cascade.Source.Position
import Cascade.Text.Blank

/-!
# Reports

A report is a fault with the position it was found at.  It is shown on one line, or as a
diagnostic that repeats the line of the source and points at the column.

## Main definitions

* `Report` : a located fault.
* `Report.summary` : the report on one line.
* `Report.diagnostic` : the report against its source, with a caret under the column.
-/

namespace Cascade

/-- A fault and where it was found. -/
structure Report where
  /-- What is wrong. -/
  fault : Fault
  /-- Where it is. -/
  position : Position

namespace Report

/-- The report on one line: name, message and position. -/
def summary (r : Report) : String :=
  r.fault.name ++ ": " ++ r.fault.message ++ " (" ++ r.position.file ++ ":" ++
    toString r.position.offset.toNat ++ ")"

/-- The head of a diagnostic: the name of the fault with its advice, and the name of the
source. -/
def heading (r : Report) : String :=
  let advice :=
    match r.fault.tip? with
    | none => ""
    | some tip => " (" ++ tip ++ ")"
  "Error: " ++ r.fault.name ++ advice ++ "\n-> " ++ r.position.file ++ "\n"

/-- The offset a diagnostic points at.  A report behind the end points at the last byte. -/
def pointer (r : Report) (source : String) : UInt32 :=
  min r.position.offset (UInt32.ofNat (Text.byteSize source.toList - 1))

/-- A text of one character repeated. -/
def row (n : Nat) (c : Char) : String :=
  String.ofList (List.replicate n c)

/-- Whether a character belongs to the indentation of a line. -/
def isIndent (c : Char) : Bool :=
  c = ' ' || c = '\t'

/-- A line of the source without its indentation, and the caret under the column.  The bars of
the three rows stand in one column. -/
def excerpt (line : Line) : String :=
  let number := toString line.number
  let indent := (line.text.takeWhile isIndent).length
  let shown := String.ofList (Text.trim (line.text.dropWhile isIndent))
  let gutter := row (number.length + 1) ' ' ++ "|"
  gutter ++ "\n" ++ number ++ " | " ++ shown ++ "\n" ++
    gutter ++ " " ++ row (line.column - indent) '-' ++ "^\n"

/-- The report against its source.  Without a line to show, only the head is left. -/
def diagnostic (r : Report) (source : String) : String :=
  match lineAt? source (r.pointer source).toNat with
  | none => r.heading
  | some line => r.heading ++ excerpt line

end Report

end Cascade
