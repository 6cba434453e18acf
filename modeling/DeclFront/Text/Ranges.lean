/-!
# Sets of runes given by ranges of code points

The character classes of this library are data of the Unicode standard, written down as tables of
inclusive ranges in ascending order. This module holds the one operation on such a table,
membership, and the small facts that let a proof use a table without looking at its rows.

ASCII never reaches a table: each class decides the first 128 code points by its own rule and
consults its table for the rest. So a statement about an ASCII text evaluates without the tables.
-/

namespace DeclFront

/-- A set of code points as inclusive ranges `(first, last)`. -/
abbrev RuneRanges := List (Nat × Nat)

namespace RuneRanges

/-- Whether the code point of `r` lies in one of the ranges. -/
def covers (ranges : RuneRanges) (r : Char) : Bool :=
  ranges.any fun range => decide (range.1 ≤ r.toNat) && decide (r.toNat ≤ range.2)

/-- Whether every range is in order and lies past the one before it, starting from `floor`. -/
def ascendsFrom : Nat → RuneRanges → Bool
  | _, [] => true
  | floor, (first, last) :: ranges =>
    decide (floor ≤ first) && decide (first ≤ last) && ascendsFrom (last + 2) ranges

/-- A rune is covered exactly when some range has it between its ends. -/
theorem covers_eq_true_iff {ranges : RuneRanges} {r : Char} :
    ranges.covers r = true ↔ ∃ range ∈ ranges, range.1 ≤ r.toNat ∧ r.toNat ≤ range.2 := by
  simp [covers]

@[simp]
theorem covers_nil (r : Char) : covers [] r = false := rfl

end RuneRanges

end DeclFront
