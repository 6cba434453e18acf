import DeclFront.Proofs.Text.Zipper

/-!
# What a cursor remembers

A cursor remembers little of the calls that were made to it: how long the rune is that can be taken
back, and where its mark was put. This module reads the calls back off these two numbers.

* What can be taken back was read by the last call that did more than move the mark
  (`Cursor.unread_after_reading`, `Cursor.unread_after_other`). The mark stays where it is then.
* So the mark can come to lie past the place. There is one way to get there: a rune was read, the
  mark was moved behind it, and the rune was taken back (`Cursor.Remembers.past`). A mark that lies
  at the place while a rune can be taken back is the state before (`Cursor.Remembers.level`). The
  two are carried along the calls together, since each may follow upon the other.

The first part holds of any calls. The second is about places between runes, so it asks that the
calls were allowed (`Cursor.Admits`); the cursor is then that of a zipper, and there are four things
that a call can do to a zipper (`Zipper.Does`).
-/

namespace DeclFront

/-! ### Readings and marks -/

namespace CursorCall

/-- The rune that the call reads so that it can be taken back, if it reads one. -/
def reads? (c : Cursor) : CursorCall → Option Char
  | read => c.head?
  | accept p => c.head?.filter p
  | _ => none

/-- Whether the call only moves the mark. -/
def isMarking : CursorCall → Bool
  | discard | take => true
  | _ => false

variable {c : Cursor} {call : CursorCall} {r : Char}

/-- A call that reads a rune moves past it. -/
theorem onCursor_of_reads (h : call.reads? c = some r) : (call.onCursor c).2 = c.past r := by
  cases call with
  | read =>
    have hhead : c.head? = some r := h
    show c.read.2 = c.past r
    rw [Cursor.read_of_head hhead]
  | accept p =>
    -- an accepted rune comes next, and passes the test
    obtain ⟨hhead, hr⟩ := Option.filter_eq_some_iff.1 h
    show (c.accept p).2 = c.past r
    rw [Cursor.accept, hhead]
    show (if p r then (true, c.past r) else (false, c.settle)).2 = c.past r
    rw [if_pos hr]
  | _ => cases h

/-- A call that only moves the mark discards the piece. -/
theorem onCursor_of_isMarking (h : call.isMarking = true) (c : Cursor) :
    (call.onCursor c).2 = c.discard := by
  cases call with
  | discard | take => rfl
  | _ => cases h

/-- Any other call leaves nothing to take back. -/
theorem undo_onCursor (hreads : call.reads? c = none) (hmarking : call.isMarking = false) :
    (call.onCursor c).2.undo = 0 := by
  cases call with
  | read =>
    have hhead : c.head? = none := hreads
    show c.read.2.undo = 0
    rw [Cursor.read_of_none hhead]
    rfl
  | accept p =>
    show (c.accept p).2.undo = 0
    unfold Cursor.accept
    cases hhead : c.head? with
    | none => rfl
    | some r =>
      -- a rune that is not read is not accepted
      have hr : ¬ p r = true := by
        intro hr
        have hread : (accept p).reads? c = some r := Option.filter_eq_some_iff.2 ⟨hhead, hr⟩
        rw [hreads] at hread
        cases hread
      show (if p r then (true, c.past r) else (false, c.settle)).2.undo = 0
      rw [if_neg hr]
      rfl
  | unread | peek | jump n => rfl
  | skip p | skipWhile p => exact Cursor.undo_skipFrom p 0 c
  | discard | take => cases hmarking

end CursorCall

/-! ### Calls one after another -/

namespace Cursor

/-- The cursor over `source` after the calls. -/
def after (source : String) (history : List CursorCall) : Cursor :=
  history.foldl (fun c call => (call.onCursor c).2) (ofSource source)

variable {source : String} {before marks : List CursorCall} {call : CursorCall} {c : Cursor}

/-- The cursor after one call more. -/
theorem after_concat (source : String) (history : List CursorCall) (call : CursorCall) :
    after source (history ++ [call]) = (call.onCursor (after source history)).2 := by
  rw [after, List.foldl_append]
  rfl

/-- Calls that move the mark change nothing else. -/
theorem after_marks (source : String) (before : List CursorCall)
    (hmarks : ∀ m ∈ marks, m.isMarking = true) :
    after source (before ++ marks) =
      { after source before with mark := (after source (before ++ marks)).mark } := by
  -- on the calls from the last one on, which is made to the cursor that the others left
  induction marks using List.reverseRecOn with
  | nil => rw [List.append_nil]
  | append_singleton marks m ih =>
    have hm : m.isMarking = true := hmarks m (by simp)
    have hmarks' := ih fun m' hm' => hmarks m' (by simp [hm'])
    rw [← List.append_assoc, after_concat, CursorCall.onCursor_of_isMarking hm, hmarks']
    rfl

/-- With nothing to take back, taking back does nothing. -/
theorem unread_of_undo (h : c.undo = 0) : c.unread = c := by
  obtain ⟨source, offset, mark, undo⟩ := c
  obtain rfl : undo = 0 := h
  rfl

/-- **To take back is to undo the last reading**, but for the mark. -/
theorem unread_after_reading {r : Char} (hreads : call.reads? (after source before) = some r)
    (hmarks : ∀ m ∈ marks, m.isMarking = true) :
    (after source (before ++ call :: marks)).unread =
      { (after source before).settle with
        mark := (after source (before ++ call :: marks)).mark } := by
  have hpast : after source (before ++ [call]) = (after source before).past r := by
    rw [after_concat, CursorCall.onCursor_of_reads hreads]
  rw [List.append_cons, after_marks source (before ++ [call]) hmarks, hpast]
  simp only [unread, past, settle, Nat.add_sub_cancel]

/-- **Behind any other call there is nothing to take back.** -/
theorem unread_after_other (hreads : call.reads? (after source before) = none)
    (hmarking : call.isMarking = false) (hmarks : ∀ m ∈ marks, m.isMarking = true) :
    (after source (before ++ call :: marks)).unread = after source (before ++ call :: marks) := by
  apply unread_of_undo
  rw [List.append_cons, after_marks source (before ++ [call]) hmarks, after_concat]
  exact CursorCall.undo_onCursor hreads hmarking

/-- Nor is there anything to take back before the first such call. -/
theorem unread_after_marks (hmarks : ∀ m ∈ marks, m.isMarking = true) :
    (after source marks).unread = after source marks := by
  apply unread_of_undo
  have hafter := after_marks source [] hmarks
  rw [List.nil_append] at hafter
  rw [hafter]
  rfl

/-- Something can only be taken back if it was read, and if nothing but the mark was moved since. -/
theorem exists_reading_of_undo (history : List CursorCall) (h : 0 < (after source history).undo) :
    ∃ before call marks r, history = before ++ call :: marks ∧
      call.reads? (after source before) = some r ∧ (∀ m ∈ marks, m.isMarking = true) ∧
      after source history =
        { (after source before).past r with mark := (after source history).mark } := by
  induction history using List.reverseRecOn with
  | nil => exact absurd h (Nat.lt_irrefl 0)
  | append_singleton history last ih =>
    -- the last call was the reading, or it moved the mark
    cases hreads : last.reads? (after source history) with
    | some r =>
      refine ⟨history, last, [], r, rfl, hreads, fun m hm => (List.not_mem_nil hm).elim, ?_⟩
      rw [after_concat, CursorCall.onCursor_of_reads hreads]
    | none =>
      cases hmarking : last.isMarking with
      | false =>
        rw [after_concat, CursorCall.undo_onCursor hreads hmarking] at h
        exact absurd h (Nat.lt_irrefl 0)
      | true =>
        -- the mark was moved, and the reading lies further back
        rw [after_concat, CursorCall.onCursor_of_isMarking hmarking] at h ⊢
        obtain ⟨before, call, marks, r, rfl, hread, hmarks, hafter⟩ := ih h
        refine ⟨before, call, marks ++ [last], r, by simp, hread, ?_, ?_⟩
        · intro m hm
          obtain hm | hm := List.mem_append.1 hm
          · exact hmarks m hm
          · rw [List.mem_singleton.1 hm]
            exact hmarking
        · rw [hafter]
          rfl

end Cursor

/-! ### What a call makes of a zipper -/

namespace Zipper

/-- What a call may make of a zipper. -/
inductive Does (z : Zipper) : CursorCall → Zipper → Prop
  /-- A rune is read that can be taken back. -/
  | reads {call : CursorCall} {r : Char} {rest : List Char} (hahead : z.ahead = r :: rest)
      (hreads : call.reads? z.cursor = some r) : Does z call (z.past hahead)
  /-- Runes are passed over for good, or none. -/
  | passes {call : CursorCall} {taken rest : List Char} (hahead : z.ahead = taken ++ rest) :
      Does z call (z.across taken hahead)
  | takesBack : Does z .unread z.unread
  | marks {call : CursorCall} (hmarking : call.isMarking = true) : Does z call z.discard

/-- A call that finds nothing passes over no runes. -/
theorem Does.settle (z : Zipper) (call : CursorCall) : z.Does call z.settle :=
  @Does.passes z call [] z.ahead rfl

/-- Every call does one of the four things. -/
theorem does_onZipper (z : Zipper) (call : CursorCall) : z.Does call (call.onZipper z).2 := by
  have hhead := z.head?_cursor
  cases call with
  | read =>
    show z.Does .read z.read.2
    cases hahead : z.ahead with
    | nil =>
      rw [read_of_nil hahead]
      exact .settle z _
    | cons r rest =>
      rw [hahead] at hhead
      rw [read_of_cons hahead]
      exact .reads hahead hhead
  | accept p =>
    show z.Does (.accept p) (z.accept p).2
    cases hahead : z.ahead with
    | nil =>
      rw [accept_of_nil hahead]
      exact .settle z _
    | cons r rest =>
      rw [hahead] at hhead
      rw [accept_of_cons hahead]
      split_ifs with hr
      · exact .reads hahead (Option.filter_eq_some_iff.2 ⟨hhead, hr⟩)
      · exact .settle z _
  | unread => exact .takesBack
  | discard | take => exact .marks rfl
  | peek => exact .settle z _
  | skip p | skipWhile p => exact .passes List.takeWhile_append_dropWhile.symm
  | jump n => exact .passes (List.take_append_drop _ _).symm

/-- The zipper over `source` after the calls. -/
def after (source : String) (history : List CursorCall) : Zipper :=
  history.foldl (fun z call => (call.onZipper z).2) (ofSource source)

/-- The zipper after one call more. -/
theorem after_concat (source : String) (history : List CursorCall) (call : CursorCall) :
    after source (history ++ [call]) = (call.onZipper (after source history)).2 := by
  rw [after, List.foldl_append]
  rfl

/-- No call changes the runes. -/
theorem Does.runes_eq {z z' : Zipper} {call : CursorCall} (h : z.Does call z') :
    z'.runes = z.runes := by
  cases h with
  | reads hahead _ | passes hahead =>
    show _ ++ _ = z.runes
    simp [runes, passed, past, across, moveTo, hahead]
  | takesBack =>
    show _ ++ _ = z.runes
    simp [runes, passed, unread, moveTo]
  | marks _ => rfl

/-- The runes are those of the source, after any calls. -/
theorem runes_after (source : String) (history : List CursorCall) :
    (after source history).runes = source.toList := by
  induction history using List.reverseRecOn with
  | nil => rfl
  | append_singleton history call ih =>
    rw [after_concat, (does_onZipper _ call).runes_eq, ih]

/-- With a rune that can be taken back, the mark does not lie past the place. -/
theorem cursor_mark_le_of_last {z : Zipper} {r : Char} (h : z.last = some r) :
    z.cursor.mark ≤ z.cursor.offset := by
  apply cursor_mark_le_iff.2
  by_contra hlt
  obtain ⟨-, -, -, hnone, -⟩ := exists_ahead_of_lt (Nat.lt_of_not_le hlt)
  rw [h] at hnone
  cases hnone

/-- Passing over a rune, one comes to the mark or past it. -/
theorem eq_nil_of_across_lt {z : Zipper} {taken rest : List Char} {hahead : z.ahead = taken ++ rest}
    (h : (z.across taken hahead).cursor.offset < (z.across taken hahead).cursor.mark) :
    taken = [] := by
  have hlt := Nat.lt_of_not_le fun hle => Nat.not_le_of_lt h (cursor_mark_le_iff.2 hle)
  -- the mark is at most one rune past the runes behind
  have hmarked : z.marked ≤ z.behind.length + 1 := z.marked_le
  have hlength : (z.across taken hahead).passed.length =
      z.behind.length + z.last.toList.length + taken.length := by
    simp [passed, across, moveTo, Nat.add_assoc]
  have hsame : (z.across taken hahead).marked = z.marked := rfl
  rw [hlength, hsame] at hlt
  exact List.eq_nil_of_length_eq_zero (by omega)

/-- Where taking back a rune leaves the mark past the place, the mark lay at the place. -/
theorem mark_eq_of_unread_lt {z : Zipper} {r : Char} (hlast : z.last = some r)
    (h : z.unread.cursor.offset < z.unread.cursor.mark) : z.cursor.mark = z.cursor.offset := by
  obtain ⟨r', rest, hahead, -, hmark⟩ := exists_ahead_of_lt
    (Nat.lt_of_not_le fun hle => Nat.not_le_of_lt h (cursor_mark_le_iff.2 hle))
  -- the rune that lies ahead now is the one that was taken back
  have hsame : r :: z.ahead = r' :: rest := by
    rw [← hahead]
    show _ = z.last.toList ++ z.ahead
    rw [hlast]
    rfl
  obtain ⟨rfl, -⟩ := List.cons.inj hsame
  rw [cursor_unread] at hmark
  have hundo : z.cursor.undo = r.utf8Size := by
    show byteLength z.last.toList = _
    rw [hlast]
    rfl
  have hoffset : z.cursor.undo ≤ z.cursor.offset := z.cursor_undo_le
  calc z.cursor.mark
      = z.cursor.offset - z.cursor.undo + r.utf8Size := hmark
    _ = z.cursor.offset := by rw [hundo]; omega

end Zipper

/-! ### The mark -/

namespace Cursor

/-- The calls were allowed, each at its time. -/
inductive Admits (source : String) : List CursorCall → Prop
  | nil : Admits source []
  | concat {history : List CursorCall} {call : CursorCall} (before : Admits source history)
      (allowed : call.Allowed (after source history)) : Admits source (history ++ [call])

variable {source : String} {history : List CursorCall}

/-- **A cursor stands for its zipper**, whatever was asked of both. -/
theorem Admits.after_eq (h : Admits source history) :
    after source history = (Zipper.after source history).cursor := by
  induction h with
  | nil => exact (Zipper.cursor_ofSource source).symm
  | @concat history call _ allowed ih =>
    rw [ih] at allowed
    rw [after_concat, Zipper.after_concat, ih, Zipper.onCursor_cursor _ call allowed]

/-- Among the calls is one that read the rune between the two offsets so that it could be taken
back, and the calls `later` were made after it, in this order. -/
def ReadBefore (source : String) (history : List CursorCall) (first last : Nat)
    (later : List CursorCall) : Prop :=
  ∃ before call after' r, history = before ++ call :: after' ∧
    call.reads? (after source before) = some r ∧ (after source before).offset = first ∧
    first + r.utf8Size = last ∧ later.Sublist after'

/-- One more call may be the last one. -/
theorem ReadBefore.push {first last : Nat} {later : List CursorCall}
    (h : ReadBefore source history first last later) (call : CursorCall) :
    ReadBefore source (history ++ [call]) first last (later ++ [call]) := by
  obtain ⟨before, reading, after', r, rfl, hreads, hfirst, hlast, hlater⟩ := h
  exact ⟨before, reading, after' ++ [call], r, by simp, hreads, hfirst, hlast,
    hlater.append (List.Sublist.refl [call])⟩

/-- Fewer calls can be asked for. -/
theorem ReadBefore.mono {first last : Nat} {later fewer : List CursorCall}
    (h : ReadBefore source history first last later) (hfewer : fewer.Sublist later) :
    ReadBefore source history first last fewer := by
  obtain ⟨before, call, after', r, hhistory, hreads, hfirst, hlast, hlater⟩ := h
  exact ⟨before, call, after', r, hhistory, hreads, hfirst, hlast, hfewer.trans hlater⟩

/-- One more call makes no difference. -/
theorem ReadBefore.keep {first last : Nat} {later : List CursorCall}
    (h : ReadBefore source history first last later) (call : CursorCall) :
    ReadBefore source (history ++ [call]) first last later :=
  (h.push call).mono (List.sublist_append_left later [call])

/-- What the mark of the cursor says about the calls. -/
structure Remembers (source : String) (history : List CursorCall) (c : Cursor) : Prop where
  /-- Where the mark lies behind a rune that can be taken back, it was moved there after that rune
  was read. -/
  level : 0 < c.undo → c.mark = c.offset → ∃ marking, marking.isMarking = true ∧
    ReadBefore source history (c.offset - c.undo) c.offset [marking]
  /-- Where the mark lies past the place, the rune in between was read, the mark was moved, and then
  the rune was taken back. -/
  past : c.offset < c.mark → ∃ marking, marking.isMarking = true ∧
    ReadBefore source history c.offset c.mark [marking, .unread]

section Remembers

variable {z z' : Zipper} {call : CursorCall}

/-- Behind a rune that was just read, the mark lies where it lay past the rune before. -/
theorem Remembers.reads (h : Remembers source history z.cursor) {r : Char} {rest : List Char}
    (hahead : z.ahead = r :: rest) :
    Remembers source (history ++ [call]) (z.past hahead).cursor where
  level := by
    -- the mark lay past the rune before that was read, and it takes a call to get it there
    intro _ hlevel
    rw [Zipper.cursor_past] at hlevel ⊢
    have hmark : z.cursor.mark = z.cursor.offset + r.utf8Size := hlevel
    have hpos := Char.utf8Size_pos r
    obtain ⟨marking, hmarking, hread⟩ := h.past (by omega)
    refine ⟨marking, hmarking, ?_⟩
    show ReadBefore source _ (z.cursor.offset + r.utf8Size - r.utf8Size)
      (z.cursor.offset + r.utf8Size) [marking]
    rw [Nat.add_sub_cancel, ← hmark]
    exact (hread.keep call).mono (List.sublist_append_left [marking] [.unread])
  past := by
    intro hlt
    have hle : (z.past hahead).cursor.mark ≤ (z.past hahead).cursor.offset :=
      Zipper.cursor_mark_le_of_last rfl
    exact absurd hle (Nat.not_le_of_lt hlt)

/-- Past runes that cannot be taken back, the mark lies past the place only if there were none. -/
theorem Remembers.passes (h : Remembers source history z.cursor) {taken rest : List Char}
    (hahead : z.ahead = taken ++ rest) :
    Remembers source (history ++ [call]) (z.across taken hahead).cursor where
  level := by
    intro hundo
    rw [Zipper.cursor_across] at hundo
    exact absurd hundo (Nat.lt_irrefl 0)
  past := by
    -- a mark that still lies past the place has not been moved towards
    intro hlt
    obtain rfl := Zipper.eq_nil_of_across_lt hlt
    rw [Zipper.cursor_across] at hlt ⊢
    obtain ⟨marking, hmarking, hread⟩ := h.past hlt
    exact ⟨marking, hmarking, hread.keep call⟩

/-- Where a rune is taken back, the mark that lay at the place comes to lie past it. -/
theorem Remembers.takesBack (h : Remembers source history z.cursor) :
    Remembers source (history ++ [.unread]) z.unread.cursor where
  level := by
    intro hundo
    rw [Zipper.cursor_unread] at hundo
    exact absurd hundo (Nat.lt_irrefl 0)
  past := by
    intro hlt
    cases hlast : z.last with
    | none =>
      -- there was nothing to take back
      have hsame : z.unread.cursor = z.cursor := by
        rw [Zipper.cursor_unread]
        apply unread_of_undo
        show byteLength z.last.toList = 0
        rw [hlast]
        rfl
      rw [hsame] at hlt ⊢
      obtain ⟨marking, hmarking, hread⟩ := h.past hlt
      exact ⟨marking, hmarking, hread.keep .unread⟩
    | some r =>
      have hlevel := Zipper.mark_eq_of_unread_lt hlast hlt
      -- the mark lay at the place, behind the rune that is now taken back
      have hundo : 0 < z.cursor.undo := by
        show 0 < byteLength z.last.toList
        rw [hlast]
        exact Nat.add_pos_left (Char.utf8Size_pos r) 0
      obtain ⟨marking, hmarking, hread⟩ := h.level hundo hlevel
      refine ⟨marking, hmarking, ?_⟩
      rw [Zipper.cursor_unread]
      show ReadBefore source _ (z.cursor.offset - z.cursor.undo) z.cursor.mark _
      rw [hlevel]
      exact hread.push .unread

/-- Where the mark is moved, whatever it said before is forgotten. -/
theorem Remembers.marks (hz : after source history = z.cursor) (hmarking : call.isMarking = true) :
    Remembers source (history ++ [call]) z.discard.cursor where
  level := by
    -- a rune that can be taken back was read, and this call puts the mark behind it
    intro hundo _
    rw [Zipper.cursor_discard] at hundo ⊢
    rw [← hz] at hundo ⊢
    obtain ⟨before, reading, marks, r, rfl, hreads, -, hafter⟩ :=
      exists_reading_of_undo history hundo
    refine ⟨call, hmarking, before, reading, marks ++ [call], r, by simp, hreads, ?_, ?_,
      List.sublist_append_right marks [call]⟩
    · show _ = (after source _).offset - (after source _).undo
      rw [hafter]
      exact (Nat.add_sub_cancel ..).symm
    · show (after source _).offset - (after source _).undo + _ = (after source _).offset
      rw [hafter]
      exact congrArg (· + r.utf8Size) (Nat.add_sub_cancel ..)
  past := by
    intro hlt
    rw [Zipper.cursor_discard] at hlt
    exact absurd hlt (Nat.lt_irrefl _)

/-- **One call keeps what the mark says.** -/
theorem Remembers.concat (hz : after source history = z.cursor) (hdoes : z.Does call z')
    (h : Remembers source history z.cursor) :
    Remembers source (history ++ [call]) z'.cursor := by
  cases hdoes with
  | reads hahead => exact h.reads hahead
  | passes hahead => exact h.passes hahead
  | takesBack => exact h.takesBack
  | marks hmarking => exact .marks hz hmarking

end Remembers

/-- After calls that were allowed, the mark says all this. -/
theorem Admits.remembers (h : Admits source history) :
    Remembers source history (after source history) := by
  induction h with
  -- at the start there is nothing to take back, and the mark is at the place
  | nil =>
    constructor
    · intro hundo
      exact absurd hundo (Nat.lt_irrefl 0)
    · intro hlt
      exact absurd hlt (Nat.lt_irrefl 0)
  | @concat history call before allowed ih =>
    have hafter := (before.concat allowed).after_eq
    rw [Zipper.after_concat] at hafter
    rw [hafter]
    rw [before.after_eq] at ih
    exact ih.concat before.after_eq (Zipper.does_onZipper _ call)

end Cursor

end DeclFront
