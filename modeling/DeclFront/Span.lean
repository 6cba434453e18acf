/-!
# Byte spans

A span is a pair of byte offsets into a source. Nothing forces the end to lie after the start: a
span read from outside may be reversed, and its length is then zero.
-/

namespace DeclFront

/-- The bytes of a source from offset `start` up to, and without, offset `stop`. -/
structure Span where
  start : Nat
  stop : Nat
deriving DecidableEq, Repr, Inhabited

namespace Span

/-- The empty span at an offset. -/
def point (offset : Nat) : Span :=
  ⟨offset, offset⟩

/-- The number of bytes covered; a reversed span covers none. -/
def length (s : Span) : Nat :=
  s.stop - s.start

/-- Whether the span covers no byte. -/
def isEmpty (s : Span) : Bool :=
  s.length == 0

/-- The span moved right by `n` bytes. -/
def shift (s : Span) (n : Nat) : Span :=
  ⟨s.start + n, s.stop + n⟩

@[simp]
theorem point_start (n : Nat) : (point n).start = n := rfl

@[simp]
theorem point_stop (n : Nat) : (point n).stop = n := rfl

@[simp]
theorem length_point (n : Nat) : (point n).length = 0 := Nat.sub_self n

@[simp]
theorem length_shift (s : Span) (n : Nat) : (s.shift n).length = s.length := by
  simp only [length, shift]
  omega

@[simp]
theorem shift_zero (s : Span) : s.shift 0 = s := rfl

/-- Moving twice moves by the sum. -/
theorem shift_shift (s : Span) (m n : Nat) : (s.shift m).shift n = s.shift (m + n) := by
  simp [shift, Nat.add_assoc]

end Span

end DeclFront
