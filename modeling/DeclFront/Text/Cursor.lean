import DeclFront.Span
import DeclFront.Text.Bytes

/-!
# A reading position in a source

A cursor reads a source rune by rune. It holds byte offsets only: where it stands, where the piece
begins that is being collected (the *mark*), and by how much the last reading can be taken back.

One reading can be taken back, and only directly: looking ahead, a refused rune, a run of accepted
runes, a jump and an attempt to read at the end all leave nothing to take back. Moving the mark
does *not* clear the undo. So the mark can come to lie past the position, by one rune at most, when
a reading is taken back after the mark was moved; there is then no collected piece, and `pending?`
says so.

Reading ends at the end of the source and is never an error. The measure of every loop over a
cursor is `remaining`, and `remaining_past_lt` is why it decreases.
-/

namespace DeclFront

/-- A reading position in `source`. -/
structure Cursor where
  source : String
  /-- How many bytes have been read. -/
  offset : Nat
  /-- Where the piece being collected begins. -/
  mark : Nat
  /-- How many bytes the last reading can be taken back by. -/
  undo : Nat
deriving DecidableEq, Repr, Inhabited

namespace Cursor

/-- A cursor at the start of a source. -/
def ofSource (source : String) : Cursor :=
  ⟨source, 0, 0, 0⟩

/-- How many bytes are left to read. -/
def remaining (c : Cursor) : Nat :=
  c.source.utf8ByteSize - c.offset

/-- The rune that would be read next. -/
def head? (c : Cursor) : Option Char :=
  runeAt? c.source c.offset

/-- The cursor after reading the rune `r`, which can be taken back. -/
def past (c : Cursor) (r : Char) : Cursor :=
  { c with offset := c.offset + r.utf8Size, undo := r.utf8Size }

/-- The cursor with nothing to take back. -/
def settle (c : Cursor) : Cursor :=
  { c with undo := 0 }

/-- **Progress.** Reading a rune leaves fewer bytes. -/
theorem remaining_past_lt {c : Cursor} {r : Char} (h : c.head? = some r) :
    (c.past r).remaining < c.remaining := by
  have hend : c.offset + r.utf8Size ≤ c.source.utf8ByteSize := add_utf8Size_le_of_runeAt? h
  have hpos : 0 < r.utf8Size := Char.utf8Size_pos r
  simp only [remaining, past]
  omega

/-! ### Reading -/

/-- Read one rune. -/
def read (c : Cursor) : Option Char × Cursor :=
  match c.head? with
  | some r => (some r, c.past r)
  | none => (none, c.settle)

/-- Take back the last reading, if it still can be. -/
def unread (c : Cursor) : Cursor :=
  { c with offset := c.offset - c.undo, undo := 0 }

/-- Look at the next rune without reading it. -/
def peek (c : Cursor) : Option Char × Cursor :=
  (c.head?, c.settle)

/-- Read one rune if it satisfies `p`. -/
def accept (c : Cursor) (p : Char → Bool) : Bool × Cursor :=
  match c.head? with
  | some r => if p r then (true, c.past r) else (false, c.settle)
  | none => (false, c.settle)

/-- Read on while the runes satisfy `p`, counting them upwards from `count`. -/
def skipFrom (p : Char → Bool) (count : Nat) (c : Cursor) : Nat × Cursor :=
  match h : c.head? with
  | none => (count, c.settle)
  | some r => if p r then skipFrom p (count + 1) (c.past r) else (count, c.settle)
termination_by c.remaining
decreasing_by exact remaining_past_lt h

/-- Read the longest run of runes that satisfy `p`, and say how many they were. -/
def skipWhile (c : Cursor) (p : Char → Bool) : Nat × Cursor :=
  skipFrom p 0 c

/-- The cursor past the longest run of runes that satisfy `p`. -/
def skip (c : Cursor) (p : Char → Bool) : Cursor :=
  (c.skipWhile p).2

/-- The cursor past the next rune if that satisfies `p`. -/
def skipOne (c : Cursor) (p : Char → Bool) : Cursor :=
  (c.accept p).2

/-- Move forward by `n` bytes, or to the end of the source if fewer are left. -/
def jump (c : Cursor) (n : Nat) : Cursor :=
  { c with offset := min (c.offset + n) c.source.utf8ByteSize, undo := 0 }

/-- Whether the runes from byte offset `offset` on start with `runes`. -/
def matchesAt (source : String) : Nat → List Char → Bool
  | _, [] => true
  | offset, r :: runes =>
    runeAt? source offset == some r && matchesAt source (offset + r.utf8Size) runes

/-- Whether the unread part of the source starts with `runes`. -/
def lookingAt (c : Cursor) (runes : List Char) : Bool :=
  matchesAt c.source c.offset runes

/-- The unread part of the source. -/
def rest (c : Cursor) : String :=
  slice c.source c.offset c.source.utf8ByteSize

/-! ### Where a cursor stands -/

/-- The cursor stands between the runes `before` and `ahead`, which make up its source. -/
def Between (c : Cursor) (before ahead : List Char) : Prop :=
  c.source.toList = before ++ ahead ∧ c.offset = byteLength before

/-- A new cursor stands before everything. -/
theorem between_ofSource (source : String) : (ofSource source).Between [] source.toList :=
  ⟨rfl, rfl⟩

/-- The next rune is the first one ahead. -/
theorem Between.head?_eq {c : Cursor} {before ahead : List Char} (h : c.Between before ahead) :
    c.head? = ahead.head? := by
  rw [head?, h.2]
  exact runeAt?_append h.1

/-- Reading a rune moves it from ahead to behind. -/
theorem Between.past {c : Cursor} {before ahead : List Char} {r : Char}
    (h : c.Between before (r :: ahead)) : (c.past r).Between (before ++ [r]) ahead := by
  refine ⟨?_, ?_⟩
  · simpa [Cursor.past] using h.1
  · simp [Cursor.past, h.2]

/-- Where the next rune is known, the cursor stands before it. -/
theorem exists_between_of_head? {c : Cursor} {r : Char} (h : c.head? = some r) :
    ∃ before ahead, c.Between before (r :: ahead) := by
  obtain ⟨before, ahead, hsplit, hoff⟩ := exists_of_runeAt?_eq_some h
  exact ⟨before, ahead, hsplit, hoff⟩

/-! ### The piece being collected -/

/-- The span of the piece being collected. -/
def span (c : Cursor) : Span :=
  ⟨c.mark, c.offset⟩

/-- Whether the piece being collected has any rune. -/
def hasPending (c : Cursor) : Bool :=
  decide (c.mark < c.offset)

/-- The text of the piece being collected. -/
def pending (c : Cursor) : String :=
  slice c.source c.mark c.offset

/-- The text of the piece being collected, if the mark does not lie past the position. -/
def pending? (c : Cursor) : Option String :=
  if c.mark ≤ c.offset then some c.pending else none

/-- Move the mark to the position: what was collected is given up. -/
def discard (c : Cursor) : Cursor :=
  { c with mark := c.offset }

/-- Hand out the piece being collected, and begin the next one. -/
def take (c : Cursor) : (String × Span) × Cursor :=
  ((c.pending, c.span), c.discard)

end Cursor

end DeclFront
