/-!
# Sets of characters as ranges of code points

A property of characters is kept as a table of closed ranges of code points.  Membership is a
plain search, so a statement about a property is a statement about its table.

## Main definitions

* `Ranges` : a table of closed ranges.
* `Ranges.covers` : whether a character lies in one of the ranges.
-/

namespace Cascade.Text

/-- A set of characters, written as closed ranges of code points. -/
abbrev Ranges := List (Nat × Nat)

namespace Ranges

/-- Whether the character lies in one of the ranges. -/
def covers (rs : Ranges) (c : Char) : Bool :=
  rs.any fun r => r.1 ≤ c.toNat && c.toNat ≤ r.2

/-- A character is covered exactly if some range holds its code point. -/
theorem covers_eq_true_iff {rs : Ranges} {c : Char} :
    rs.covers c = true ↔ ∃ r ∈ rs, r.1 ≤ c.toNat ∧ c.toNat ≤ r.2 := by
  simp only [covers, List.any_eq_true, Bool.and_eq_true, decide_eq_true_eq]

end Ranges

end Cascade.Text
