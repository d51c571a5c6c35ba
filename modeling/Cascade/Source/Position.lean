/-!
# Positions in a source

A position is a byte offset in a named source.  Offsets are kept in 32 bits and wrap around in a
source that is larger.

## Main definitions

* `Position` : an offset and the name of the source.
* `Span` : where a piece of a source begins and ends.
* `Span.between` : the span of a piece, from offsets without a bound.
-/

namespace Cascade

/-- A place in a named source. -/
structure Position where
  /-- The offset in bytes. -/
  offset : UInt32
  /-- The name of the source. -/
  file : String
deriving DecidableEq, Repr

/-- The place of something that stands in no source. -/
def Position.nowhere : Position :=
  ⟨0, "<null>"⟩

/-- The place at an offset, kept in 32 bits. -/
def Position.ofOffset (file : String) (offset : Nat) : Position :=
  ⟨UInt32.ofNat offset, file⟩

/-- A piece of a source. -/
structure Span where
  /-- Where the piece begins. -/
  start : Position
  /-- The first place behind the piece. -/
  stop : Position
deriving DecidableEq, Repr

/-- The span of something that stands in no source. -/
def Span.nowhere : Span :=
  ⟨Position.nowhere, Position.nowhere⟩

/-- The span from one offset up to another. -/
def Span.between (file : String) (start stop : Nat) : Span :=
  ⟨Position.ofOffset file start, Position.ofOffset file stop⟩

/-- An offset below the bound of 32 bits is kept as it is. -/
theorem Position.toNat_ofOffset (file : String) {offset : Nat} (h : offset < UInt32.size) :
    (Position.ofOffset file offset).offset.toNat = offset := by
  simp only [Position.ofOffset, UInt32.toNat_ofNat', Nat.mod_eq_of_lt h]

end Cascade
