/-!
# Likeness of words

A mistyped command is recognised by its likeness to a real one. Two words `a` and `b` are alike in
so far as they share runes near the same places: the number `m` of shared runes, and the number `t`
of those that stand in another order, give

    (m / length a + m / length b + (m - ⌊t / 2⌋) / m) / 3.

Likeness is only ever compared with a bound, so it is kept as a fraction and compared by cross
multiplication: no rounding takes part.
-/

namespace DeclFront

namespace Likeness

/-- The first index from `low` on, and below `high`, of a rune of `b` that equals `r` and is not in
`used`. -/
def partner? (b : List Char) (used : List Nat) (r : Char) (low high : Nat) : Option Nat :=
  (List.range' low (high - low)).find? fun j => b[j]? == some r && !used.contains j

/-- Pair each rune of `a`, which starts at index `i`, with a free equal rune of `b` at most `reach`
places away: the paired runes of `a` in order, and the indices of their partners in `b`. -/
def pairUp (b : List Char) (reach : Nat) : Nat → List Nat → List Char → List Char × List Nat
  | _, used, [] => ([], used)
  | i, used, r :: a =>
    match partner? b used r (i - reach) (min b.length (i + reach + 1)) with
    | some j =>
      let (paired, used) := pairUp b reach (i + 1) (j :: used) a
      (r :: paired, used)
    | none => pairUp b reach (i + 1) used a

/-- The runes of `b` at the given indices, in the order of `b`. -/
def select (b : List Char) (used : List Nat) : List Char :=
  (b.zipIdx.filter fun (_, j) => used.contains j).map (·.1)

/-- Whether two words are alike by seven tenths or more. -/
def resembles (a b : String) : Bool :=
  let a := a.toList
  let b := b.toList
  if a.isEmpty || b.isEmpty then a.isEmpty && b.isEmpty
  else
    let reach := max a.length b.length / 2 - 1
    let (paired, used) := pairUp b reach 0 [] a
    let m := paired.length
    let moved := ((paired.zip (select b used)).filter fun (x, y) => x != y).length / 2
    m != 0 &&
      decide (21 * (a.length * b.length * m) ≤
        10 * (m * b.length * m + m * a.length * m + (m - moved) * a.length * b.length))

-- Four shared runes of five, all in another order, give exactly seven tenths.
example : resembles "hraes" "parse" = true := by decide +kernel

-- A further rune that is not shared gives less.
example : resembles "hraesz" "parse" = false := by decide +kernel

end Likeness

end DeclFront
