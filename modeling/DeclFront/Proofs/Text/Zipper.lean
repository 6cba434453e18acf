import DeclFront.Proofs.Scan.Guarded

/-!
# A cursor is a zipper

A cursor counts bytes. What it does is simpler to say in runes. A `Zipper` has the runes of its
source in three places: those behind, those ahead, and between them the rune that was read last, if
it can still be taken back. To take it back is to let it join the runes ahead. Whatever else moves
the place, or looks past it, lets it join the runes behind. The mark is a number of runes.

* `Zipper.cursor` is the cursor that a zipper stands for, with the place and the mark in bytes;
* `CursorCall` lists what can be asked of a cursor, `CursorCall.Allowed` what may be, and
  `CursorCall.onZipper` says what a zipper answers;
* `Zipper.onCursor_cursor` is the step: a call to the cursor of a zipper is the same call to the
  zipper.

A zipper carries the one fact about its mark that everything rests on: the mark lies no further than
one rune past the runes behind. That rune may have been taken back after the mark was moved past it,
and then it is the first one ahead (`Zipper.exists_ahead_of_lt`). Only then is there no piece
between the mark and the place (`Zipper.cursor_mark_le_iff`).
-/

namespace DeclFront

/-- The runes of a source with a place among them, a mark, and a rune that can be taken back. -/
structure Zipper where
  /-- The runes before the place, but for the one that can be taken back. -/
  behind : List Char
  /-- The rune that was read last, if it can be taken back. It lies before the place. -/
  last : Option Char
  /-- The runes after the place. -/
  ahead : List Char
  /-- How many runes lie before the mark. -/
  marked : Nat
  /-- The mark lies no further than one rune past the runes behind. -/
  marked_le : marked ≤ behind.length + 1
  /-- The mark lies in the source. -/
  marked_le_length : marked ≤ (behind ++ last.toList ++ ahead).length

namespace Zipper

/-! ### Places -/

section Place

variable (z : Zipper)

/-- The runes before the place. -/
def passed : List Char :=
  z.behind ++ z.last.toList

/-- All runes. -/
def runes : List Char :=
  z.passed ++ z.ahead

/-- At most one rune more lies before the place than behind. -/
theorem length_passed_le : z.passed.length ≤ z.behind.length + 1 := by
  rw [passed, List.length_append]
  exact Nat.add_le_add_left (Option.length_toList_le) _

/-- A zipper before everything. -/
def ofSource (source : String) : Zipper :=
  ⟨[], none, source.toList, 0, Nat.zero_le _, Nat.zero_le _⟩

/-- The zipper at another place in the same runes. What was behind stays behind. -/
def moveTo (behind : List Char) (last : Option Char) (ahead : List Char)
    (hrunes : behind ++ last.toList ++ ahead = z.runes)
    (hbehind : z.behind.length ≤ behind.length) : Zipper where
  behind := behind
  last := last
  ahead := ahead
  marked := z.marked
  marked_le := z.marked_le.trans (Nat.succ_le_succ hbehind)
  marked_le_length := by
    rw [hrunes]
    exact z.marked_le_length

/-- The zipper past the runes `taken`, which cannot be taken back. -/
def across (taken : List Char) {rest : List Char} (h : z.ahead = taken ++ rest) : Zipper :=
  z.moveTo (z.passed ++ taken) none rest
    (by simp [runes, h])
    (by simp [passed])

/-- The zipper past the rune `r`, which can be taken back. -/
def past {r : Char} {rest : List Char} (h : z.ahead = r :: rest) : Zipper :=
  z.moveTo z.passed (some r) rest
    (by simp [runes, h])
    (by simp [passed])

/-- The zipper with nothing to take back. -/
def settle : Zipper :=
  z.across [] rfl

end Place

/-! ### Operations -/

section Operations

variable (z : Zipper)

/-- Read one rune. -/
def read : Option Char × Zipper :=
  match h : z.ahead with
  | [] => (none, z.settle)
  | r :: _ => (some r, z.past h)

/-- Take back the rune that was read last, if it still can be. -/
def unread : Zipper :=
  z.moveTo z.behind none (z.last.toList ++ z.ahead)
    (by simp [runes, passed])
    (Nat.le_refl _)

/-- Look at the next rune. -/
def peek : Option Char × Zipper :=
  (z.ahead.head?, z.settle)

/-- Read one rune if it satisfies `p`. -/
def accept (p : Char → Bool) : Bool × Zipper :=
  match h : z.ahead with
  | [] => (false, z.settle)
  | r :: _ => if p r then (true, z.past h) else (false, z.settle)

/-- Read the longest run of runes that satisfy `p`, and say how many they were. -/
def skipWhile (p : Char → Bool) : Nat × Zipper :=
  ((z.ahead.takeWhile p).length,
    z.across (z.ahead.takeWhile p) List.takeWhile_append_dropWhile.symm)

/-- How many of the runes fit into `n` bytes. -/
def fitting : Nat → List Char → Nat
  | _, [] => 0
  | n, r :: runes => if r.utf8Size ≤ n then fitting (n - r.utf8Size) runes + 1 else 0

/-- Move past the next runes, as many as fit into `n` bytes. -/
def jump (n : Nat) : Zipper :=
  z.across (z.ahead.take (fitting n z.ahead)) (List.take_append_drop _ _).symm

/-- Move the mark to the place. -/
def discard : Zipper where
  behind := z.behind
  last := z.last
  ahead := z.ahead
  marked := z.passed.length
  marked_le := z.length_passed_le
  marked_le_length := by
    show z.passed.length ≤ (z.passed ++ z.ahead).length
    rw [List.length_append]
    exact Nat.le_add_right _ _

/-- The runes between the mark and the place. -/
def piece : List Char :=
  z.passed.drop z.marked

/-- Hand out the piece with its span, and begin the next one. -/
def take : (String × Span) × Zipper :=
  ((String.ofList z.piece, ⟨byteLength (z.runes.take z.marked), byteLength z.passed⟩), z.discard)

end Operations

/-! ### The cursor of a zipper -/

/-- The cursor that the zipper stands for. -/
def cursor (z : Zipper) : Cursor where
  source := String.ofList z.runes
  offset := byteLength z.passed
  mark := byteLength (z.runes.take z.marked)
  undo := byteLength z.last.toList

section Cursor

variable {z : Zipper}

/-- A new zipper is a new cursor. -/
theorem cursor_ofSource (source : String) : (ofSource source).cursor = Cursor.ofSource source := by
  show (⟨String.ofList source.toList, 0, 0, 0⟩ : Cursor) = ⟨source, 0, 0, 0⟩
  rw [String.ofList_toList]

/-- The place of the cursor is that of the zipper. -/
theorem between_cursor (z : Zipper) : z.cursor.Between z.passed z.ahead :=
  ⟨String.toList_ofList, rfl⟩

/-- A zipper and its cursor see the same next rune. -/
theorem head?_cursor (z : Zipper) : z.cursor.head? = z.ahead.head? :=
  z.between_cursor.head?_eq

/-- At another place, only the place and what can be taken back are different. -/
theorem cursor_moveTo {behind : List Char} {last : Option Char} {ahead : List Char}
    (hrunes : behind ++ last.toList ++ ahead = z.runes)
    (hbehind : z.behind.length ≤ behind.length) :
    (z.moveTo behind last ahead hrunes hbehind).cursor =
      { z.cursor with
        offset := byteLength (behind ++ last.toList)
        undo := byteLength last.toList } := by
  have hsame : (z.moveTo behind last ahead hrunes hbehind).runes = z.runes := hrunes
  simp only [cursor, hsame]
  rfl

/-- Past some runes, the place moves on by their bytes. -/
theorem cursor_across {taken rest : List Char} (h : z.ahead = taken ++ rest) :
    (z.across taken h).cursor =
      { z.cursor with offset := z.cursor.offset + byteLength taken, undo := 0 } := by
  rw [across, cursor_moveTo]
  simp [cursor]

/-- Past one rune, the cursor moves past it, too. -/
theorem cursor_past {r : Char} {rest : List Char} (h : z.ahead = r :: rest) :
    (z.past h).cursor = z.cursor.past r := by
  rw [past, cursor_moveTo]
  simp [cursor, Cursor.past]

/-- No more can be taken back than lies before the place. -/
theorem cursor_undo_le (z : Zipper) : z.cursor.undo ≤ z.cursor.offset := by
  show byteLength z.last.toList ≤ byteLength z.passed
  rw [passed, byteLength_append]
  exact Nat.le_add_left _ _

/-- What can be taken back is the last rune before the place, or nothing. -/
theorem cursor_undo_eq (z : Zipper) :
    z.cursor.undo = 0 ∨ ∃ r, z.passed.getLast? = some r ∧ z.cursor.undo = r.utf8Size := by
  cases hlast : z.last with
  | none =>
    refine .inl ?_
    show byteLength z.last.toList = 0
    rw [hlast]
    rfl
  | some r =>
    refine .inr ⟨r, ?_, ?_⟩
    · rw [passed, hlast]
      exact List.getLast?_concat
    · show byteLength z.last.toList = r.utf8Size
      rw [hlast]
      rfl

/-- What the cursor has ahead is what the zipper has. -/
theorem rest_cursor (z : Zipper) : z.cursor.rest = String.ofList z.ahead := by
  have hsource : z.cursor.source.toList = z.passed ++ (z.ahead ++ []) := by
    rw [List.append_nil]
    exact z.between_cursor.1
  have hend : z.cursor.source.utf8ByteSize = byteLength z.passed + byteLength z.ahead := by
    rw [utf8ByteSize_eq_byteLength, z.between_cursor.1, byteLength_append]
  rw [Cursor.rest, hend]
  exact slice_append hsource

/-- Settling the one settles the other. -/
theorem cursor_settle (z : Zipper) : z.settle.cursor = z.cursor.settle := by
  have hnone : z.ahead = [] ++ z.ahead := rfl
  exact cursor_across hnone

/-- So does moving the mark. -/
theorem cursor_discard (z : Zipper) : z.discard.cursor = z.cursor.discard := by
  have hmark : z.runes.take z.passed.length = z.passed := List.take_left
  show (⟨_, _, byteLength (z.runes.take z.passed.length), _⟩ : Cursor) = z.cursor.discard
  rw [hmark]
  rfl

/-! ### The mark -/

/-- A mark that lies past the place lies past the next rune, and nothing can be taken back. -/
theorem exists_ahead_of_lt (h : z.passed.length < z.marked) :
    ∃ r rest, z.ahead = r :: rest ∧ z.last = none ∧
      z.cursor.mark = z.cursor.offset + r.utf8Size := by
  have hle := z.marked_le
  -- a rune that can be taken back would lie before the place, and so before the mark
  have hlast : z.last = none := by
    cases hlast : z.last with
    | none => rfl
    | some r =>
      rw [passed, hlast, List.length_append] at h
      simp only [Option.toList_some, List.length_singleton] at h
      omega
  have hpassed : z.passed = z.behind := by
    rw [passed, hlast]
    exact List.append_nil _
  -- it lies past the place by just one rune
  have hmarked : z.marked = z.passed.length + 1 := by
    rw [hpassed] at h ⊢
    omega
  cases hahead : z.ahead with
  | nil =>
    -- the mark lies in the source, so there is a rune ahead
    have hlength : z.marked ≤ (z.passed ++ z.ahead).length := z.marked_le_length
    rw [hahead, List.append_nil] at hlength
    omega
  | cons r rest =>
    have htake : z.runes.take z.marked = z.passed ++ [r] := by
      rw [hmarked, runes, hahead, List.take_length_add_append]
      rfl
    refine ⟨r, rest, rfl, hlast, ?_⟩
    show byteLength (z.runes.take z.marked) = byteLength z.passed + r.utf8Size
    rw [htake, byteLength_append]
    rfl

/-- Otherwise there is a piece between the mark and the place. -/
theorem holds_cursor (h : z.marked ≤ z.passed.length) :
    z.cursor.Holds (z.passed.take z.marked) z.piece z.ahead := by
  have hsplit : z.passed.take z.marked ++ z.piece = z.passed := List.take_append_drop _ _
  -- the runes before the mark have all been passed
  have hmark : z.runes.take z.marked = z.passed.take z.marked :=
    List.take_append_of_le_length h
  refine ⟨?_, ?_, ?_⟩
  · rw [← List.append_assoc, hsplit]
    exact z.between_cursor.1
  · show byteLength (z.runes.take z.marked) = _
    rw [hmark]
  · show byteLength z.passed = _
    rw [← byteLength_append, hsplit]

/-- The mark does not lie past the place in bytes exactly if it does not in runes. -/
theorem cursor_mark_le_iff : z.cursor.mark ≤ z.cursor.offset ↔ z.marked ≤ z.passed.length := by
  constructor
  · -- past the place it would be so by a rune, which takes some bytes
    intro hle
    by_contra hlt
    obtain ⟨r, rest, -, -, hmark⟩ := exists_ahead_of_lt (Nat.lt_of_not_le hlt)
    have hpos := Char.utf8Size_pos r
    omega
  · intro h
    rw [(holds_cursor h).mark_eq, (holds_cursor h).offset_eq]
    exact Nat.le_add_right _ _

/-- **The piece is there exactly where the mark does not lie past the place.** -/
theorem text?_cursor (z : Zipper) :
    z.cursor.text? =
      if z.cursor.mark ≤ z.cursor.offset then some (String.ofList z.piece) else none := by
  split
  · next hle =>
    have hholds := holds_cursor (cursor_mark_le_iff.1 hle)
    have hsound : z.cursor.Sound := ⟨_, _, _, hholds⟩
    rw [hsound.text?_eq, hholds.pending_eq]
  · next hlt =>
    unfold Cursor.text?
    rw [decide_eq_false hlt, Bool.and_false]
    exact if_neg Bool.false_ne_true

/-- The mark lies between runes. -/
theorem boundary_mark (z : Zipper) : Boundary z.cursor.source z.cursor.mark := by
  refine ⟨z.runes.take z.marked, z.runes.drop z.marked, ?_, rfl⟩
  rw [List.take_append_drop]
  exact String.toList_ofList

end Cursor

end Zipper

/-! ### Calls -/

/-- What can be asked of a cursor. -/
inductive CursorCall where
  | read
  | unread
  | peek
  | accept (p : Char → Bool)
  | skip (p : Char → Bool)
  | skipWhile (p : Char → Bool)
  | jump (n : Nat)
  | discard
  | take

/-- What is answered to a call. -/
inductive CursorAnswer where
  | nothing
  | rune (r : Option Char)
  | accepted (yes : Bool)
  | count (n : Nat)
  | piece (text : String) (span : Span)
deriving DecidableEq, Repr

namespace CursorCall

/-- What a call to a cursor answers, and the cursor that it leaves. -/
def onCursor (c : Cursor) : CursorCall → CursorAnswer × Cursor
  | read => (.rune c.read.1, c.read.2)
  | unread => (.nothing, c.unread)
  | peek => (.rune c.peek.1, c.peek.2)
  | accept p => (.accepted (c.accept p).1, (c.accept p).2)
  | skip p => (.nothing, c.skip p)
  | skipWhile p => (.count (c.skipWhile p).1, (c.skipWhile p).2)
  | jump n => (.nothing, c.jump n)
  | discard => (.nothing, c.discard)
  | take => (.piece c.take.1.1 c.take.1.2, c.take.2)

/-- What a call to a zipper answers, and the zipper that it leaves. -/
def onZipper (z : Zipper) : CursorCall → CursorAnswer × Zipper
  | read => (.rune z.read.1, z.read.2)
  | unread => (.nothing, z.unread)
  | peek => (.rune z.peek.1, z.peek.2)
  | accept p => (.accepted (z.accept p).1, (z.accept p).2)
  | skip p => (.nothing, (z.skipWhile p).2)
  | skipWhile p => (.count (z.skipWhile p).1, (z.skipWhile p).2)
  | jump n => (.nothing, z.jump n)
  | discard => (.nothing, z.discard)
  | take => (.piece z.take.1.1 z.take.1.2, z.take.2)

/-- What may be asked of a cursor: a jump must end between runes, or at the end of the source or
past it, and a piece can only be taken where there is one. -/
def Allowed (c : Cursor) : CursorCall → Prop
  | jump n => isBoundary c.source (c.offset + n) = true ∨ c.source.utf8ByteSize ≤ c.offset + n
  | take => c.mark ≤ c.offset
  | _ => True

instance (c : Cursor) : DecidablePred (Allowed c) := fun call => by
  cases call <;> unfold Allowed <;> infer_instance

end CursorCall

/-! ### One call -/

namespace Cursor

variable {c : Cursor} {before ahead : List Char}

/-- A run is the longest one, and it is counted. -/
theorem Between.skipFrom_eq (h : c.Between before ahead) (p : Char → Bool) (count : Nat) :
    skipFrom p count c =
      (count + (ahead.takeWhile p).length,
        { c with offset := c.offset + byteLength (ahead.takeWhile p), undo := 0 }) := by
  -- the runes of the run are read one after another, and the first that does not fit is left
  induction ahead generalizing c before count with
  | nil =>
    rw [skipFrom]
    split
    · rfl
    · next r hr => rw [h.head?_eq] at hr; cases hr
  | cons r ahead ih =>
    rw [skipFrom]
    split
    · next hnone => rw [h.head?_eq] at hnone; cases hnone
    · next r' hr' =>
      obtain rfl : r = r' := Option.some.inj (h.head?_eq.symm.trans hr')
      by_cases hr : p r = true
      · rw [if_pos hr, List.takeWhile_cons_of_pos hr, ih h.past (count + 1), List.length_cons,
          byteLength_cons, Cursor.past, Nat.add_right_comm count, Nat.add_assoc c.offset]
        rfl
      · rw [if_neg hr, List.takeWhile_cons_of_neg hr]
        rfl

/-- A jump that ends between two runes, or past them all, is a jump over whole runes. -/
theorem Between.exists_jumped (h : c.Between before ahead) {n : Nat}
    (hn : (CursorCall.jump n).Allowed c) :
    ∃ taken rest, ahead = taken ++ rest ∧ byteLength taken ≤ n ∧
      (byteLength taken = n ∨ rest = []) := by
  have hsize : c.source.utf8ByteSize = c.offset + byteLength ahead := by
    rw [utf8ByteSize_eq_byteLength, h.1, byteLength_append, h.2]
  obtain hboundary | hend := hn
  · obtain ⟨before', rest, hsplit, hoffset⟩ := isBoundary_iff.1 hboundary
    have hsame : before ++ ahead = before' ++ rest := h.1.symm.trans hsplit
    rw [h.2] at hoffset
    -- two ways to split the runes; the end of the jump lies no nearer than its beginning
    obtain ⟨taken, hbefore, hrest⟩ | ⟨taken, hbefore, hahead⟩ := List.append_eq_append_iff.1 hsame
    · refine ⟨taken, rest, hrest, ?_, .inl ?_⟩
      all_goals
        rw [hbefore, byteLength_append] at hoffset
        omega
    · rw [hbefore, byteLength_append] at hoffset
      refine ⟨[], ahead, rfl, Nat.zero_le _, .inl ?_⟩
      rw [byteLength_nil]
      omega
  · -- past the end of the source, all runes are passed
    refine ⟨ahead, [], (List.append_nil _).symm, ?_, .inr rfl⟩
    omega

end Cursor

namespace Zipper

variable {z : Zipper}

/-- Runes that fit are counted, up to one that does not. -/
theorem fitting_append {taken rest : List Char} {n : Nat} (hle : byteLength taken ≤ n)
    (hstop : byteLength taken = n ∨ rest = []) : fitting n (taken ++ rest) = taken.length := by
  induction taken generalizing n with
  | nil =>
    rw [List.nil_append, List.length_nil]
    cases rest with
    | nil => rfl
    | cons r rest =>
      -- no room is left for the next rune
      obtain hzero | hnil := hstop
      · have hpos := Char.utf8Size_pos r
        rw [byteLength_nil] at hzero
        rw [fitting, if_neg (by omega)]
      · cases hnil
  | cons r taken ih =>
    rw [byteLength_cons] at hle hstop
    rw [List.cons_append, fitting, if_pos (by omega), ih (by omega) ?_, List.length_cons]
    obtain hexact | hnil := hstop
    · exact .inl (by omega)
    · exact .inr hnil

/-- Reading where nothing is ahead. -/
theorem read_of_nil (h : z.ahead = []) : z.read = (none, z.settle) := by
  unfold read
  split
  · rfl
  · next hcons => rw [h] at hcons; cases hcons

/-- Reading the next rune. -/
theorem read_of_cons {r : Char} {rest : List Char} (h : z.ahead = r :: rest) :
    z.read = (some r, z.past h) := by
  unfold read
  split
  · next hnil => rw [h] at hnil; cases hnil
  · next hcons =>
    obtain ⟨rfl, rfl⟩ := List.cons.inj (h.symm.trans hcons)
    rfl

/-- Accepting where nothing is ahead. -/
theorem accept_of_nil (h : z.ahead = []) (p : Char → Bool) : z.accept p = (false, z.settle) := by
  unfold accept
  split
  · rfl
  · next hcons => rw [h] at hcons; cases hcons

/-- Accepting the next rune, or not. -/
theorem accept_of_cons {r : Char} {rest : List Char} (h : z.ahead = r :: rest)
    (p : Char → Bool) :
    z.accept p = if p r then (true, z.past h) else (false, z.settle) := by
  unfold accept
  split
  · next hnil => rw [h] at hnil; cases hnil
  · next hcons =>
    obtain ⟨rfl, rfl⟩ := List.cons.inj (h.symm.trans hcons)
    rfl

/-- Reading is the same for both. -/
theorem cursor_read (z : Zipper) : z.cursor.read = (z.read.1, z.read.2.cursor) := by
  have hhead := z.head?_cursor
  -- they agree on whether there is a rune, and which
  cases hahead : z.ahead with
  | nil =>
    rw [hahead] at hhead
    rw [Cursor.read_of_none hhead, read_of_nil hahead, cursor_settle]
  | cons r rest =>
    rw [hahead] at hhead
    rw [Cursor.read_of_head hhead, read_of_cons hahead, cursor_past]

/-- So is taking back. -/
theorem cursor_unread (z : Zipper) : z.unread.cursor = z.cursor.unread := by
  rw [unread, cursor_moveTo]
  simp [cursor, passed, Cursor.unread]

/-- So is accepting. -/
theorem cursor_accept (z : Zipper) (p : Char → Bool) :
    z.cursor.accept p = ((z.accept p).1, (z.accept p).2.cursor) := by
  have hhead := z.head?_cursor
  unfold Cursor.accept
  rw [hhead]
  cases hahead : z.ahead with
  | nil => rw [accept_of_nil hahead, cursor_settle]; rfl
  | cons r rest =>
    rw [accept_of_cons hahead]
    show (if p r then (true, z.cursor.past r) else (false, z.cursor.settle)) = _
    -- only a rune that passes the test is read
    split_ifs
    · rw [cursor_past]
    · rw [cursor_settle]

/-- So is a run. -/
theorem cursor_skipWhile (z : Zipper) (p : Char → Bool) :
    z.cursor.skipWhile p = ((z.skipWhile p).1, (z.skipWhile p).2.cursor) := by
  rw [Cursor.skipWhile, z.between_cursor.skipFrom_eq, Nat.zero_add, skipWhile, cursor_across]

/-- So is a jump, if it is allowed. -/
theorem cursor_jump {n : Nat} (hn : (CursorCall.jump n).Allowed z.cursor) :
    z.cursor.jump n = (z.jump n).cursor := by
  obtain ⟨taken, rest, hahead, hle, hstop⟩ := z.between_cursor.exists_jumped hn
  -- the runes that fit are those that are passed over
  have hfit : z.ahead.take (fitting n z.ahead) = taken := by
    rw [hahead, fitting_append hle hstop, List.take_left]
  have hsize : z.cursor.source.utf8ByteSize =
      z.cursor.offset + (byteLength taken + byteLength rest) := by
    rw [utf8ByteSize_eq_byteLength, z.between_cursor.1, byteLength_append, hahead,
      byteLength_append]
    rfl
  -- a jump past the end is cut off there
  have hend : min (z.cursor.offset + n) z.cursor.source.utf8ByteSize =
      z.cursor.offset + byteLength taken := by
    rw [hsize]
    obtain hexact | rfl := hstop
    · omega
    · rw [byteLength_nil]
      omega
  rw [jump, cursor_across, hfit, Cursor.jump, hend]

/-- So is handing out the piece, if there is one. -/
theorem cursor_take (h : CursorCall.take.Allowed z.cursor) :
    z.cursor.take = (z.take.1, z.take.2.cursor) := by
  have hholds := holds_cursor (cursor_mark_le_iff.1 h)
  rw [Cursor.take, hholds.pending_eq]
  show _ = (_, z.discard.cursor)
  rw [cursor_discard]
  rfl

/-- **A call to the cursor of a zipper is a call to the zipper.** -/
theorem onCursor_cursor (z : Zipper) (call : CursorCall) (h : call.Allowed z.cursor) :
    call.onCursor z.cursor = ((call.onZipper z).1, (call.onZipper z).2.cursor) := by
  cases call with
  | read =>
    rw [CursorCall.onCursor, cursor_read]
    rfl
  | unread =>
    rw [CursorCall.onCursor, ← cursor_unread]
    rfl
  -- to look at the next rune moves nothing, and leaves nothing to take back
  | peek =>
    show (_, z.cursor.settle) = (_, z.settle.cursor)
    rw [Cursor.peek, head?_cursor, cursor_settle]
    rfl
  | accept p =>
    rw [CursorCall.onCursor, cursor_accept]
    rfl
  | skip p =>
    rw [CursorCall.onCursor, Cursor.skip, cursor_skipWhile]
    rfl
  | skipWhile p =>
    rw [CursorCall.onCursor, cursor_skipWhile]
    rfl
  | jump n =>
    rw [CursorCall.onCursor, cursor_jump h]
    rfl
  | discard =>
    rw [CursorCall.onCursor, ← cursor_discard]
    rfl
  | take =>
    rw [CursorCall.onCursor, cursor_take h]
    rfl

end Zipper

end DeclFront
