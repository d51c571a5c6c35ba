import Cascade.Source.Position
import Cascade.Text.Bytes

/-!
# Reading heads

A reading head is a place in a source that moves on by whole numbers of bytes.  It may stand
behind the end or inside a character, and then there is nothing to read.

## Main definitions

* `Head` : a source, its name, and the offset of the head.
* `Head.remainder?` : the text from the head on.
* `Head.here?` : the character under the head.

## Main results

* `Head.remainder?_eq_some_iff` : where a head has a text to read, and which one.
-/

namespace Cascade

/-- A place in a source. -/
structure Head where
  /-- The text of the source. -/
  source : String
  /-- The name of the source. -/
  file : String
  /-- The number of bytes in front of the head. -/
  offset : Nat := 0

namespace Head

/-- The head `n` bytes further on. -/
def advance (h : Head) (n : Nat) : Head :=
  { h with offset := h.offset + n }

/-- The text from the head on.  There is none behind the end and inside a character. -/
def remainder? (h : Head) : Option (List Char) :=
  Text.dropBytes? h.offset h.source.toList

/-- The character under the head, which at the very end is the null character. -/
def here? (h : Head) : Option Char :=
  h.remainder?.map fun cs => cs.headD '\x00'

/-- Whether no byte is left to read. -/
def atEnd (h : Head) : Bool :=
  Text.byteSize h.source.toList ≤ h.offset

/-- The span of the next `n` bytes. -/
def span (h : Head) (n : Nat) : Span :=
  Span.between h.file h.offset (h.offset + n)

/-- There is a text from the head on if and only if the head stands between two characters: the
text is what stands behind it, and its offset is the size of what stands in front of it. -/
theorem remainder?_eq_some_iff {h : Head} {rest : List Char} :
    h.remainder? = some rest ↔
      ∃ front, h.source.toList = front ++ rest ∧ Text.byteSize front = h.offset := by
  constructor
  · exact Text.eq_append_of_dropBytes?
  · rintro ⟨front, hsource, hoffset⟩
    rw [remainder?, hsource, ← hoffset]
    exact Text.dropBytes?_byteSize_append front rest

end Head

end Cascade
