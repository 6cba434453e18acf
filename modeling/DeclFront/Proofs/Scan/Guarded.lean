import DeclFront.Proofs.Scan.Position

/-!
# A scanner that checks itself

Cutting a piece out of a text is only possible between runes, taking back a reading only if that
much was read, and a bracket can only be closed if one is open. The scanner makes none of these
checks. This module has a scanner that makes all of them, each time, and gives up where one fails:
a result of `none` is a failed check. From a sound cursor the two scanners do the same, so no check
ever fails (`Scanner.step?_eq`).

The rest is about scans whose states are chosen from outside, in any order, also after a state has
halted. `Scanner.walk` runs them with a sink of any kind, and `Scanner.walk_sound` collects what
holds of every such walk.
-/

namespace DeclFront

/-- Whether the offset lies between two runes of the text, or at one of its ends. -/
def isBoundary (text : String) (offset : Nat) : Bool :=
  offset == text.utf8ByteSize || (runeAt? text offset).isSome

/-- The check finds the offsets between runes. -/
theorem isBoundary_iff {text : String} {offset : Nat} :
    isBoundary text offset = true ↔ Boundary text offset := by
  rw [isBoundary, Bool.or_eq_true, beq_iff_eq, Option.isSome_iff_exists]
  constructor
  · -- the end, or the start of a rune
    rintro (rfl | ⟨r, hr⟩)
    · exact ⟨text.toList, [], (List.append_nil _).symm, utf8ByteSize_eq_byteLength text⟩
    · obtain ⟨before, ahead, hsplit, hoffset⟩ := exists_of_runeAt?_eq_some hr
      exact ⟨before, r :: ahead, hsplit, hoffset⟩
  · rintro ⟨before, ahead, hsplit, rfl⟩
    cases ahead with
    | nil =>
      left
      rw [utf8ByteSize_eq_byteLength, hsplit, List.append_nil]
    | cons r ahead => exact .inr ⟨r, runeAt?_append hsplit⟩

/-! ### Reading with checks -/

namespace Cursor

/-- Read one rune, out of what lies ahead of the position. -/
def read? (c : Cursor) : Option (Option Char × Cursor) :=
  if isBoundary c.source c.offset then some c.read else none

/-- Take back the last reading, which must not be longer than all that was read. -/
def unread? (c : Cursor) : Option Cursor :=
  if c.undo ≤ c.offset then some c.unread else none

/-- The text of the piece, if both of its ends lie between runes and in this order. -/
def text? (c : Cursor) : Option String :=
  if isBoundary c.source c.mark && isBoundary c.source c.offset && decide (c.mark ≤ c.offset) then
    some c.pending
  else none

/-- Look at the next rune, by reading it and taking that back. -/
def peek? (c : Cursor) : Option (Option Char) := do
  let (rune, c) ← c.read?
  let _ ← c.unread?
  return rune

/-- Read one rune, and take that back if it does not satisfy `p`. -/
def accept? (c : Cursor) (p : Char → Bool) : Option (Bool × Cursor) := do
  let (rune, c) ← c.read?
  if rune.any p then return (true, c)
  let c ← c.unread?
  return (false, c)

/-- A rune that was read is no longer left. -/
theorem remaining_lt_of_read? {c c' : Cursor} {r : Char} (h : c.read? = some (some r, c')) :
    c'.remaining < c.remaining := by
  unfold read? read at h
  split at h
  · split at h
    · next q hq =>
      cases h
      exact remaining_past_lt hq
    · cases h
  · cases h

/-- Reading leaves no more than there was. -/
theorem remaining_le_of_read? {c c' : Cursor} {rune : Option Char} (h : c.read? = some (rune, c')) :
    c'.remaining ≤ c.remaining := by
  cases rune with
  | some r => exact Nat.le_of_lt (remaining_lt_of_read? h)
  | none =>
    unfold read? read at h
    split at h
    · split at h
      · cases h
      · cases h
        exact Nat.le_refl _
    · cases h

/-- Read on while the runes satisfy `p`; the first that does not is taken back. -/
def skip? (p : Char → Bool) (c : Cursor) : Option Cursor :=
  match h : c.read? with
  | none => none
  | some (none, c') => some c'
  | some (some r, c') =>
    have _lt := remaining_lt_of_read? h
    -- the rune that does not satisfy `p` was read, so it can be taken back
    if p r then skip? p c' else c'.unread?
termination_by c.remaining

/-- Read up to the closing delimiter of `form`, which is looked for in what lies ahead. -/
def seek? (form : Delimited) (c : Cursor) : Option (Bool × Cursor) :=
  if isBoundary c.source c.offset then
    if c.lookingAt form.closer then some (true, c)
    else
      match h : c.read? with
      | none => none
      | some (none, c') => some (false, c')
      | some (some r, c') =>
        have _one := remaining_lt_of_read? h
        if form.escapes && r == '\\' then
          match h' : c'.read? with
          | none => none
          | some (_, c'') =>
            have _two := Nat.lt_of_le_of_lt (remaining_le_of_read? h') (remaining_lt_of_read? h)
            seek? form c''
        else seek? form c'
  else none
termination_by c.remaining

/-- Read a character constant from after its opening quote. -/
def readChar? (c : Cursor) : Option (Bool × Cursor) :=
  match h : c.read? with
  | none => none
  | some (none, c') => some (false, c')
  | some (some r, c') =>
    have _one := remaining_lt_of_read? h
    if r == '\\' then
      match h' : c'.read? with
      | none => none
      | some (none, c'') => some (false, c'')
      | some (some q, c'') =>
        have _two := Nat.lt_trans (remaining_lt_of_read? h') (remaining_lt_of_read? h)
        if q == '\n' then some (false, c'') else readChar? c''
    else if r == '\n' then some (false, c')
    else if r == '\'' then some (true, c')
    else readChar? c'
termination_by c.remaining

/-- Read a leading zero and the marker after it, if they are there. -/
def readRadix? (c : Cursor) : Option (Radix × Cursor) := do
  let (zero, c) ← c.accept? (· == '0')
  if !zero then return (.decimal, c)
  let (hexadecimal, c) ← c.accept? fun r => r == 'x' || r == 'X'
  if hexadecimal then return (.hexadecimal, c)
  let (octal, c) ← c.accept? fun r => r == 'o' || r == 'O'
  if octal then return (.octal, c)
  let (binary, c) ← c.accept? fun r => r == 'b' || r == 'B'
  if binary then return (.binary, c)
  return (.decimal, c)

/-- Read a point and the digits after it, if there is a point. -/
def readFraction? (radix : Radix) (c : Cursor) : Option Cursor := do
  let (point, c) ← c.accept? (· == '.')
  if point then c.skip? radix.isDigit else return c

/-- Read an exponent, if there is one. -/
def readExponent? (c : Cursor) : Option Cursor := do
  let (letter, c) ← c.accept? fun r => r == 'e' || r == 'E'
  if !letter then return c
  let (_, c) ← c.accept? isSign
  c.skip? isDecimal

/-- Read what follows the sign of a number. -/
def readMagnitude? (c : Cursor) : Option Cursor := do
  let (radix, c) ← c.readRadix?
  let c ← c.skip? radix.isDigit
  let c ← c.readFraction? radix
  let c ← c.readExponent?
  let (_, c) ← c.accept? (· == 'i')
  return c

end Cursor

/-! ### States with checks -/

/-- What a state with checks does: the result is missing where a check failed. -/
abbrev GuardedStep := Emitter (Option (Option ScanState × Scanner))

namespace Emitter

variable {α β : Type}

/-- The process with another result. -/
def map (f : α → β) (e : Emitter α) : Emitter β :=
  e.bind fun a => halt (f a)

/-- Go on with what was checked, or give up. -/
def guarding (checked : Option α) (next : α → Emitter (Option β)) : Emitter (Option β) :=
  match checked with
  | some a => next a
  | none => halt none

end Emitter

namespace Scanner

open Emitter (guarding)

/-- Emit the piece collected by `c`, if it can be cut out, and go on with `next` if it is taken. -/
def emitThen? (s : Scanner) (c : Cursor) (kind : TokenKind) (next : Scanner → GuardedStep) :
    GuardedStep :=
  guarding c.text? fun text => .offer ⟨kind, text, c.span⟩ fun taken =>
    if taken then next (s.moveTo c.discard) else .halt (some (none, s.moveTo c.discard))

/-- Emit the piece collected by `c`, and be neutral again. -/
def emit? (s : Scanner) (c : Cursor) (kind : TokenKind) : GuardedStep :=
  s.emitThen? c kind fun s => .halt (some (some .neutral, s))

/-- Emit a closing bracket and count one open bracket less, if any is open. -/
def scanClosing? (s : Scanner) (c : Cursor) (b : Bracket) : GuardedStep :=
  if s.depth b = 0 then
    (s.fail c ("unexpected character " ++ nameRune b.closing) c.span).map some
  else
    guarding (if 1 ≤ s.depth b then some (s.depth b - 1) else none) fun n =>
      (s.setDepth b n).emit? c .bracketClose

/-- After a slash: a comment, or the slash as punctuation. -/
def scanSlash? (s : Scanner) (c : Cursor) : GuardedStep :=
  guarding c.peek? fun rune =>
    if rune = some '/' then (s.goto (c.past '/') .lineComment).map some
    else if rune = some '*' then (s.goto (c.past '*') .blockComment).map some
    else s.emit? c .literal

/-- Take back the rune that was read, and go on in the state that reads it. -/
def handOver? (s : Scanner) (c : Cursor) (next : ScanState) : GuardedStep :=
  guarding c.unread? fun c => (s.goto c next).map some

/-- Decide by the next rune what begins. -/
def scanNeutral? (s : Scanner) : GuardedStep :=
  guarding s.cursor.read? fun (rune, c) =>
    match rune with
    | none =>
      if s.parens ≠ 0 ∨ s.braces ≠ 0 then
        (s.fail c "unclosed bracket" (Span.point c.offset)).map some
      else .halt (some (none, s.moveTo c))
    | some r =>
      if isLineEnd r then s.handOver? c .lineEnds
      else if isBlank r then s.handOver? c .blanks
      else if r = '"' then (s.goto c.discard .string).map some
      else if r = '\x60' then (s.goto c.discard .quote).map some
      else if r = '\'' then (s.goto c .char).map some
      else if r = '/' then s.scanSlash? c
      else if Cursor.isSign r || isDecimal r then s.handOver? c .number
      else if isWordRune r then s.handOver? c .word
      else if r = '(' then (s.setDepth .paren (s.depth .paren + 1)).emit? c .bracketOpen
      else if r = '\x7b' then (s.setDepth .brace (s.depth .brace + 1)).emit? c .bracketOpen
      else if r = ')' then s.scanClosing? c .paren
      else if r = '\x7d' then s.scanClosing? c .brace
      else if isGraphic r then s.emit? c .literal
      else (s.fail c ("unrecognized character " ++ nameRune r) c.span).map some

/-- Scan a run of white space of one sort. -/
def scanTrivia? (s : Scanner) (kind : TokenKind) (p : Char → Bool) : GuardedStep :=
  guarding (s.cursor.skip? p) fun c =>
    if s.options.keepTrivia then s.emit? c kind else (s.goto c.discard .neutral).map some

/-- Scan a delimited piece from after its opener. -/
def scanDelimited? (s : Scanner) (form : Delimited) : GuardedStep :=
  guarding (s.cursor.seek? form) fun (found, c) =>
    if found then
      if form.keepsCloser then s.emit? (c.jump (byteLength form.closer)) form.kind
      else s.emitThen? c form.kind fun s =>
        (s.goto (s.cursor.jump (byteLength form.closer)).discard .neutral).map some
    else if c.hasPending then s.emitThen? c form.kind fun s => (s.emitEnd s.cursor).map some
    else (s.emitEnd c).map some

/-- Scan a character constant from after its opening quote. -/
def scanChar? (s : Scanner) : GuardedStep :=
  guarding s.cursor.readChar? fun (closed, c) =>
    if closed then s.emit? c .char
    else (s.fail c "unterminated character constant" c.span).map some

/-- Scan what follows the sign of a number. -/
def scanMagnitude? (s : Scanner) (c : Cursor) : GuardedStep :=
  guarding c.readMagnitude? fun c =>
    guarding c.peek? fun rune =>
      match rune with
      | some r =>
        if isWordRune r then
          guarding c.read? fun (_, c) => guarding c.text? fun text =>
            (s.fail c ("bad number syntax: " ++ quoteText text) c.span).map some
        else s.emit? c .number
      | none => s.emit? c .number

/-- Scan a number. -/
def scanNumber? (s : Scanner) : GuardedStep :=
  guarding (s.cursor.accept? Cursor.isSign) fun (signed, c) =>
    if signed then
      guarding c.peek? fun rune =>
        if rune.any continuesSign then s.scanMagnitude? c else s.emit? c .literal
    else s.scanMagnitude? c

/-- Scan a word. -/
def scanWord? (s : Scanner) : GuardedStep :=
  guarding (s.cursor.skip? continuesWord) fun c =>
    guarding c.peek? fun rune =>
      if rune.all endsWord then guarding c.text? fun text => s.emit? c (.ofWord text)
      else
        let r := rune.getD '\x00'
        (s.fail c ("unexpected character " ++ nameRune r)
          ⟨c.offset, c.offset + r.utf8Size⟩).map some

/-- Run one state. -/
def step? (s : Scanner) : ScanState → GuardedStep
  | .neutral => s.scanNeutral?
  | .blanks => s.scanTrivia? .space isBlank
  | .lineEnds => s.scanTrivia? .endOfLine isLineEnd
  | .string => s.scanDelimited? .string
  | .quote => s.scanDelimited? .quote
  | .char => s.scanChar?
  | .lineComment => s.scanDelimited? .lineComment
  | .blockComment => s.scanDelimited? .blockComment
  | .number => s.scanNumber?
  | .word => s.scanWord?

end Scanner

/-! ### No check of a reading fails -/

namespace Cursor

variable {c : Cursor}

/-- A sound position lies between runes. -/
theorem Sound.read?_eq (h : c.Sound) : c.read? = some c.read :=
  if_pos (isBoundary_iff.2 h.boundary_offset)

/-- A sound piece can be cut out. -/
theorem Sound.text?_eq (h : c.Sound) : c.text? = some c.pending := by
  unfold text?
  rw [isBoundary_iff.2 h.boundary_mark, isBoundary_iff.2 h.boundary_offset,
    decide_eq_true h.mark_le_offset]
  rfl

/-- Reading the rune that comes. -/
theorem read_of_head {r : Char} (h : c.head? = some r) : c.read = (some r, c.past r) := by
  rw [read, h]

/-- Reading where nothing comes. -/
theorem read_of_none (h : c.head? = none) : c.read = (none, c.settle) := by
  rw [read, h]

/-- A rune that was just read can be taken back. -/
theorem unread?_past (c : Cursor) (r : Char) : (c.past r).unread? = some c.settle := by
  have hle : (c.past r).undo ≤ (c.past r).offset := Nat.le_add_left _ _
  have hback : (c.past r).unread = c.settle := by
    simp only [unread, past, settle, Nat.add_sub_cancel]
  rw [unread?, if_pos hle, hback]

/-- There is nothing to take back after a failed reading. -/
theorem unread?_settle (c : Cursor) : c.settle.unread? = some c.settle := by
  have hle : c.settle.undo ≤ c.settle.offset := Nat.zero_le _
  rw [unread?, if_pos hle]
  rfl

/-- Looking ahead passes its checks. -/
theorem Sound.peek?_eq (h : c.Sound) : c.peek? = some c.head? := by
  unfold peek?
  rw [h.read?_eq]
  -- what was read is taken back, if it was anything
  cases hhead : c.head? with
  | none =>
    rw [read_of_none hhead]
    simp [unread?_settle]
  | some r =>
    rw [read_of_head hhead]
    simp [unread?_past]

/-- Accepting a rune passes its checks. -/
theorem Sound.accept?_eq (h : c.Sound) (p : Char → Bool) : c.accept? p = some (c.accept p) := by
  unfold accept? accept
  rw [h.read?_eq]
  cases hhead : c.head? with
  | none =>
    rw [read_of_none hhead]
    simp [unread?_settle]
  | some r =>
    rw [read_of_head hhead]
    -- only a rune that is refused is taken back
    by_cases hr : p r = true
    · simp [hr]
    · simp [hr, unread?_past]

/-- Reading the rune that comes, with the check. -/
theorem Sound.read?_of_head (h : c.Sound) {r : Char} (hhead : c.head? = some r) :
    c.read? = some (some r, c.past r) := by
  rw [h.read?_eq, read_of_head hhead]

/-- Reading where nothing comes, with the check. -/
theorem Sound.read?_of_none (h : c.Sound) (hhead : c.head? = none) :
    c.read? = some (none, c.settle) := by
  rw [h.read?_eq, read_of_none hhead]

/-- A run that ends with the source. -/
theorem skip?_of_end {p : Char → Bool} {c' : Cursor} (h : c.read? = some (none, c')) :
    c.skip? p = some c' := by
  rw [skip?]
  split
  · next heq => rw [h] at heq; cases heq
  · next heq => rw [h] at heq; cases heq; rfl
  · next heq => rw [h] at heq; cases heq

/-- A run at a rune. -/
theorem skip?_of_rune {p : Char → Bool} {r : Char} {c' : Cursor}
    (h : c.read? = some (some r, c')) :
    c.skip? p = if p r then c'.skip? p else c'.unread? := by
  rw [skip?]
  split
  · next heq => rw [h] at heq; cases heq
  · next heq => rw [h] at heq; cases heq
  · next heq => rw [h] at heq; cases heq; rfl

/-- Reading a run passes its checks. -/
theorem Sound.skip?_eq (h : c.Sound) (p : Char → Bool) : c.skip? p = some (c.skip p) := by
  -- the count of the runes read makes no difference to where reading ends
  have hcount : ∀ count, c.skip? p = some (skipFrom p count c).2 := by
    intro count
    fun_induction skipFrom p count c with
    | case1 count c hhead => exact skip?_of_end (h.read?_of_none hhead)
    | case2 count c r hhead hr ih =>
      rw [skip?_of_rune (h.read?_of_head hhead), if_pos hr]
      exact ih ((Onward.refl h).past hhead).sound
    | case3 count c r hhead hr =>
      rw [skip?_of_rune (h.read?_of_head hhead), if_neg hr, unread?_past]
  exact hcount 0

/-- Where nothing comes, no closer is found. -/
theorem Sound.seek?_of_end (h : c.Sound) {form : Delimited}
    (hclosed : ¬ c.lookingAt form.closer = true) (hhead : c.head? = none) :
    c.seek? form = some (false, c.settle) := by
  have hread := h.read?_of_none hhead
  rw [seek?, if_pos (isBoundary_iff.2 h.boundary_offset), if_neg hclosed]
  split
  · next heq => rw [hread] at heq; cases heq
  · next heq => rw [hread] at heq; cases heq; rfl
  · next heq => rw [hread] at heq; cases heq

/-- Looking for a closer goes past a rune, and past a second one that the first hides. -/
theorem Sound.seek?_of_head (h : c.Sound) {form : Delimited} {r : Char}
    (hclosed : ¬ c.lookingAt form.closer = true) (hhead : c.head? = some r) :
    c.seek? form =
      if form.escapes && r == '\\' then (c.past r).read.2.seek? form
      else (c.past r).seek? form := by
  have hread := h.read?_of_head hhead
  have hnext : (c.past r).read? = some (c.past r).read :=
    ((Onward.refl h).past hhead).sound.read?_eq
  rw [seek?, if_pos (isBoundary_iff.2 h.boundary_offset), if_neg hclosed]
  split
  · next heq => rw [hread] at heq; cases heq
  · next heq => rw [hread] at heq; cases heq
  · next heq =>
    rw [hread] at heq
    cases heq
    -- only a backslash is followed by a second reading
    split_ifs with hescape
    · split
      · next heq => rw [hnext] at heq; cases heq
      · next heq => rw [hnext, Option.some.injEq] at heq; rw [heq]
    · rfl

/-- Reading, if there is anything to read, keeps the cursor sound. -/
theorem Sound.read (h : c.Sound) : c.read.2.Sound := by
  cases hhead : c.head? with
  | none =>
    rw [read_of_none hhead]
    exact (Onward.refl h).settle.sound
  | some r =>
    rw [read_of_head hhead]
    exact ((Onward.refl h).past hhead).sound

/-- Looking for a closer passes its checks. -/
theorem Sound.seek?_eq (h : c.Sound) (form : Delimited) :
    c.seek? form = some (c.seek form) := by
  fun_induction Cursor.seek form c with
  | case1 c hclosed =>
    rw [seek?, if_pos (isBoundary_iff.2 h.boundary_offset), if_pos hclosed]
  | case2 c hclosed hhead => exact h.seek?_of_end hclosed hhead
  | case3 c hclosed r hhead _ _ hescape ih =>
    rw [h.seek?_of_head hclosed hhead, if_pos hescape]
    exact ih ((Onward.refl h).past hhead).sound.read
  | case4 c hclosed r hhead _ _ hescape ih =>
    rw [h.seek?_of_head hclosed hhead, if_neg hescape]
    exact ih ((Onward.refl h).past hhead).sound

/-- A character constant breaks off with the source. -/
theorem readChar?_of_end {c' : Cursor} (h : c.read? = some (none, c')) :
    c.readChar? = some (false, c') := by
  rw [readChar?]
  split
  · next heq => rw [h] at heq; cases heq
  · next heq => rw [h] at heq; cases heq; rfl
  · next heq => rw [h] at heq; cases heq

/-- A character constant at a rune that hides nothing. -/
theorem readChar?_of_rune {r : Char} {c' : Cursor} (h : c.read? = some (some r, c'))
    (hr : ¬ (r == '\\') = true) :
    c.readChar? =
      if r == '\n' then some (false, c')
      else if r == '\'' then some (true, c') else c'.readChar? := by
  rw [readChar?]
  split
  · next heq => rw [h] at heq; cases heq
  · next heq => rw [h] at heq; cases heq
  · next heq =>
    rw [h] at heq
    cases heq
    exact if_neg hr

/-- A character constant at a backslash, which hides whatever was read after it. -/
theorem readChar?_of_escape {r : Char} {c' c'' : Cursor} {rune : Option Char}
    (h : c.read? = some (some r, c')) (hr : (r == '\\') = true)
    (h' : c'.read? = some (rune, c'')) :
    c.readChar? =
      if rune.all (· == '\n') then some (false, c'') else c''.readChar? := by
  rw [readChar?]
  split
  · next heq => rw [h] at heq; cases heq
  · next heq => rw [h] at heq; cases heq
  · next heq =>
    rw [h] at heq
    cases heq
    refine (if_pos hr).trans ?_
    split
    · next heq => rw [h'] at heq; cases heq
    · next heq => rw [h'] at heq; cases heq; rfl
    · next heq => rw [h'] at heq; cases heq; rfl

/-- Reading a character constant passes its checks. -/
theorem Sound.readChar?_eq (h : c.Sound) : c.readChar? = some c.readChar := by
  fun_induction Cursor.readChar c with
  | case1 c hhead => exact readChar?_of_end (h.read?_of_none hhead)
  -- after a backslash a second rune is read, with a check of its own
  | case2 c r hhead _ hescape hnone =>
    have hpast := ((Onward.refl h).past hhead).sound
    rw [readChar?_of_escape (h.read?_of_head hhead) hescape (hpast.read?_of_none hnone)]
    rfl
  | case3 c r hhead _ hescape q hq _ hline =>
    have hpast := ((Onward.refl h).past hhead).sound
    rw [readChar?_of_escape (h.read?_of_head hhead) hescape (hpast.read?_of_head hq)]
    exact if_pos hline
  | case4 c r hhead _ hescape q hq _ hline ih =>
    have hpast := (Onward.refl h).past hhead
    rw [readChar?_of_escape (h.read?_of_head hhead) hescape (hpast.sound.read?_of_head hq)]
    exact (if_neg hline).trans (ih (hpast.past hq).sound)
  | case5 c r hhead _ hescape hline =>
    rw [readChar?_of_rune (h.read?_of_head hhead) hescape, if_pos hline]
  | case6 c r hhead _ hescape hline hquote =>
    rw [readChar?_of_rune (h.read?_of_head hhead) hescape, if_neg hline, if_pos hquote]
  | case7 c r hhead _ hescape hline hquote ih =>
    rw [readChar?_of_rune (h.read?_of_head hhead) hescape, if_neg hline, if_neg hquote]
    exact ih ((Onward.refl h).past hhead).sound

/-- Accepting a rune keeps the cursor sound. -/
theorem Sound.accept (h : c.Sound) {p : Char → Bool} (hp : Solid p) : (c.accept p).2.Sound :=
  ((Onward.refl h).op (local_skipOne hp)).sound

/-- Where nothing comes, nothing is accepted. -/
theorem accept_of_none {p : Char → Bool} (h : c.head? = none) :
    c.accept p = (false, c.settle) := by
  rw [Cursor.accept, h]

/-- Reading the marker of a radix passes its checks. -/
theorem Sound.readRadix?_eq (h : c.Sound) : c.readRadix? = some c.readRadix := by
  have hzero : Solid (· == '0') := solid_of_four (by decide)
  have hsound := h.accept hzero
  unfold readRadix? readRadix
  rw [h.accept?_eq]
  cases haccept : c.accept (· == '0') with
  | mk zero c₁ =>
    cases zero with
    -- without a zero there is no marker to look for
    | false => rfl
    | true =>
      rw [haccept] at hsound
      have hsettle : c₁.settle.Sound := (Onward.refl hsound).settle.sound
      have hsettle' : c₁.settle.settle.Sound := (Onward.refl hsettle).settle.sound
      simp only [Option.bind_eq_bind, Option.bind_some, Bool.not_true, Bool.false_eq_true,
        if_false, hsound.accept?_eq]
      cases hhead : c₁.head? with
      | none =>
        -- three times nothing is found
        have hnone : c₁.settle.head? = none := hhead
        have hnone' : c₁.settle.settle.head? = none := hhead
        rw [accept_of_none hhead]
        simp only [Option.bind_some, Bool.false_eq_true, if_false, hsettle.accept?_eq]
        rw [accept_of_none hnone]
        simp only [Option.bind_some, Bool.false_eq_true, if_false, hsettle'.accept?_eq]
        rw [accept_of_none hnone']
        rfl
      | some r =>
        have hhead' : c₁.settle.head? = some r := hhead
        have hhead'' : c₁.settle.settle.head? = some r := hhead
        dsimp only
        unfold Radix.ofMarker?
        -- each marker is asked for in turn, and what was refused leaves the cursor in place
        by_cases hx : (r == 'x' || r == 'X') = true
        · rw [accept_of_head hhead hx, if_pos hx]
          rfl
        · rw [accept_of_not_head hhead (Bool.not_eq_true _ ▸ hx), if_neg hx]
          simp only [Option.bind_some, Bool.false_eq_true, if_false, hsettle.accept?_eq]
          by_cases ho : (r == 'o' || r == 'O') = true
          · rw [accept_of_head hhead' ho, if_pos ho]
            rfl
          · rw [accept_of_not_head hhead' (Bool.not_eq_true _ ▸ ho), if_neg ho]
            simp only [Option.bind_some, Bool.false_eq_true, if_false, hsettle'.accept?_eq]
            by_cases hb : (r == 'b' || r == 'B') = true
            · rw [accept_of_head hhead'' hb, if_pos hb]
              rfl
            · rw [accept_of_not_head hhead'' (Bool.not_eq_true _ ▸ hb), if_neg hb]
              rfl

/-- Reading the marker of a radix keeps the cursor sound. -/
theorem Sound.readRadix (h : c.Sound) : c.readRadix.2.Sound := by
  have hzero : Solid (· == '0') := solid_of_four (by decide)
  have hsound := h.accept hzero
  unfold Cursor.readRadix
  cases haccept : c.accept (· == '0') with
  | mk zero c₁ =>
    rw [haccept] at hsound
    cases zero with
    | false => exact hsound
    | true =>
      have hhere := Onward.refl hsound
      cases hhead : c₁.head? with
      -- after the zero a marker, another rune, or nothing
      | none =>
        simp only [hhead]
        exact hhere.settle.sound
      | some r =>
        cases hmarker : Radix.ofMarker? r with
        | none =>
          simp only [hhead, hmarker]
          exact hhere.settle.sound
        | some radix =>
          simp only [hhead, hmarker]
          exact (hhere.past hhead).sound

/-- Reading a fraction passes its checks. -/
theorem Sound.readFraction?_eq (h : c.Sound) (radix : Radix) :
    c.readFraction? radix = some (c.readFraction radix) := by
  have hpoint : Solid (· == '.') := solid_of_four (by decide)
  have hsound := h.accept hpoint
  unfold readFraction? readFraction
  rw [h.accept?_eq]
  cases haccept : c.accept (· == '.') with
  | mk point c₁ =>
    rw [haccept] at hsound
    cases point with
    | false => rfl
    | true => exact hsound.skip?_eq _

/-- Reading an exponent passes its checks. -/
theorem Sound.readExponent?_eq (h : c.Sound) : c.readExponent? = some c.readExponent := by
  have hletter : Solid fun r => r == 'e' || r == 'E' := solid_of_four (by decide)
  have hsound := h.accept hletter
  unfold readExponent? readExponent
  rw [h.accept?_eq]
  cases haccept : c.accept fun r => r == 'e' || r == 'E' with
  | mk letter c₁ =>
    rw [haccept] at hsound
    cases letter with
    | false => rfl
    | true =>
      have hsign := hsound.accept solid_isSign
      simp only [Option.bind_eq_bind, Option.bind_some, Bool.not_true, Bool.false_eq_true,
        if_false, hsound.accept?_eq]
      exact hsign.skip?_eq _

/-- Reading a number passes its checks. -/
theorem Sound.readMagnitude?_eq (h : c.Sound) : c.readMagnitude? = some c.readMagnitude := by
  -- each part leaves a sound cursor for the next
  have hradix := h.readRadix
  have hskip := ((Onward.refl hradix).skip c.readRadix.1.isDigit).sound
  have hfraction := ((Onward.refl hskip).op (local_readFraction c.readRadix.1)).sound
  have hexponent := ((Onward.refl hfraction).op local_readExponent).sound
  unfold readMagnitude? readMagnitude
  rw [h.readRadix?_eq]
  simp only [Option.bind_eq_bind, Option.bind_some, hradix.skip?_eq, hskip.readFraction?_eq,
    hfraction.readExponent?_eq, hexponent.accept?_eq]
  rfl

end Cursor

/-! ### No check of a state fails -/

namespace Emitter

variable {α β : Type}

@[simp] theorem map_offer (f : α → β) (t : Token) (resume : Bool → Emitter α) :
    (offer t resume).map f = offer t fun taken => (resume taken).map f := rfl

@[simp] theorem guarding_some (a : α) (next : α → Emitter (Option β)) :
    guarding (some a) next = next a := rfl

/-- Another result makes no difference to the sink. -/
theorem into_map {σ : Type} [TokenSink σ] (f : α → β) (e : Emitter α) (sink : σ) :
    (e.map f).into sink = (f (e.into sink).1, (e.into sink).2) := by
  induction e generalizing sink with
  | halt a => rfl
  | offer t resume ih => exact ih _ _

/-- Nor to the tokens that are sent. -/
theorem offers_map {σ : Type} [TokenSink σ] (f : α → β) (e : Emitter α) (sink : σ) :
    (e.map f).offers sink = e.offers sink := by
  induction e generalizing sink with
  | halt a => rfl
  | offer t resume ih => exact congrArg (t :: ·) (ih _ _)

/-- Where both branches pass their checks, so does the choice between them. -/
theorem ite_eq_map {p : Prop} [Decidable p] {e d : Emitter α} {e' d' : Emitter (Option α)}
    (he : e' = e.map some) (hd : d' = d.map some) :
    (if p then e' else d') = (if p then e else d).map some := by
  split_ifs
  · exact he
  · exact hd

end Emitter

namespace Scanner

variable {s : Scanner} {c : Cursor}

/-- Emitting a piece passes its check, and goes on as before. -/
theorem emitThen?_eq (h : c.Sound) (kind : TokenKind) {after : Scanner → ScanStep}
    {after? : Scanner → GuardedStep}
    (hafter : after? (s.moveTo c.discard) = (after (s.moveTo c.discard)).map some) :
    s.emitThen? c kind after? = (s.emitThen c kind after).map some := by
  unfold emitThen? emitThen
  rw [h.text?_eq, Emitter.guarding_some, Emitter.map_offer]
  congr 1
  funext taken
  -- a token that is refused ends the scan in both
  cases taken with
  | false => rfl
  | true => exact hafter

/-- Emitting a piece passes its check. -/
theorem emit?_eq (h : c.Sound) (kind : TokenKind) :
    s.emit? c kind = (s.emit c kind).map some :=
  emitThen?_eq h kind rfl

/-- A rune that was just read can be handed over to the state that reads it. -/
theorem handOver?_past (r : Char) (next : ScanState) :
    s.handOver? (c.past r) next = (s.goto c.settle next).map some := by
  rw [handOver?, Cursor.unread?_past, Emitter.guarding_some]

/-- The count of open brackets passes its check. -/
theorem scanClosing?_eq (h : c.Sound) (b : Bracket) :
    s.scanClosing? c b = (s.scanClosing c b).map some := by
  unfold scanClosing? scanClosing
  cases hdepth : s.depth b with
  | zero => rfl
  | succ n =>
    -- only an open bracket is closed
    have hopen : 1 ≤ n + 1 := Nat.succ_le_succ (Nat.zero_le n)
    rw [if_neg (Nat.succ_ne_zero n), if_pos hopen, Emitter.guarding_some]
    exact emit?_eq h .bracketClose

/-- After a slash, by the rune that comes. -/
theorem scanSlash_eq (s : Scanner) (c : Cursor) :
    s.scanSlash c =
      if c.head? = some '/' then s.goto (c.past '/') .lineComment
      else if c.head? = some '*' then s.goto (c.past '*') .blockComment
      else s.emit c .literal := by
  unfold scanSlash
  split
  · next hline => rw [if_pos hline]
  · next hblock =>
    have hline : ¬ c.head? = some '/' := by
      rw [hblock]
      decide
    rw [if_neg hline, if_pos hblock]
  · next hline hblock => rw [if_neg hline, if_neg hblock]

/-- What a slash begins passes its check. -/
theorem scanSlash?_eq (h : c.Sound) : s.scanSlash? c = (s.scanSlash c).map some := by
  rw [scanSlash?, h.peek?_eq, Emitter.guarding_some, scanSlash_eq]
  apply Emitter.ite_eq_map rfl
  exact Emitter.ite_eq_map rfl (emit?_eq h .literal)

/-- What a rune begins passes its checks. -/
theorem scanNeutral?_of_head (h : s.cursor.Sound) {r : Char} (hhead : s.cursor.head? = some r) :
    s.scanNeutral? = s.scanNeutral.map some := by
  have hpast : (s.cursor.past r).Sound := ((Cursor.Onward.refl h).past hhead).sound
  unfold scanNeutral? scanNeutral
  rw [h.read?_eq, Emitter.guarding_some, Cursor.read_of_head hhead, hhead]
  dsimp only
  -- both scanners make the same tests in the same order
  apply Emitter.ite_eq_map (handOver?_past r .lineEnds)
  apply Emitter.ite_eq_map (handOver?_past r .blanks)
  apply Emitter.ite_eq_map rfl
  apply Emitter.ite_eq_map rfl
  apply Emitter.ite_eq_map rfl
  apply Emitter.ite_eq_map (scanSlash?_eq hpast)
  apply Emitter.ite_eq_map (handOver?_past r .number)
  apply Emitter.ite_eq_map (handOver?_past r .word)
  apply Emitter.ite_eq_map (emit?_eq hpast .bracketOpen)
  apply Emitter.ite_eq_map (emit?_eq hpast .bracketOpen)
  apply Emitter.ite_eq_map (scanClosing?_eq hpast .paren)
  apply Emitter.ite_eq_map (scanClosing?_eq hpast .brace)
  exact Emitter.ite_eq_map (emit?_eq hpast .literal) rfl

/-- The neutral state passes its checks. -/
theorem scanNeutral?_eq (h : s.cursor.Sound) : s.scanNeutral? = s.scanNeutral.map some := by
  cases hhead : s.cursor.head? with
  | none =>
    unfold scanNeutral? scanNeutral
    rw [h.read?_eq, Emitter.guarding_some, Cursor.read_of_none hhead, hhead]
    exact Emitter.ite_eq_map rfl rfl
  | some r => exact scanNeutral?_of_head h hhead

/-- White space passes its checks. -/
theorem scanTrivia?_eq (h : s.cursor.Sound) (kind : TokenKind) (p : Char → Bool) :
    s.scanTrivia? kind p = (s.scanTrivia kind p).map some := by
  unfold scanTrivia? scanTrivia
  rw [h.skip?_eq, Emitter.guarding_some]
  exact Emitter.ite_eq_map (emit?_eq ((Cursor.Onward.refl h).skip p).sound kind) rfl

/-- A delimited piece passes its checks. -/
theorem scanDelimited?_eq (h : s.cursor.Sound) {form : Delimited} (hcloser : form.closer ≠ []) :
    s.scanDelimited? form = (s.scanDelimited form).map some := by
  unfold scanDelimited? scanDelimited
  rw [h.seek?_eq, Emitter.guarding_some]
  cases hseek : s.cursor.seek form with
  | mk found c =>
    have hfound := (Cursor.Onward.refl h).seek hcloser hseek
    cases found with
    | true =>
      -- the closer stands there, so jumping over it keeps the cursor sound
      have hjump := (h.jump_closer hcloser hseek).1
      dsimp only
      rw [if_pos rfl]
      -- a form that drops its closer jumps over it after the piece is emitted
      apply Emitter.ite_eq_map
      · exact emit?_eq hjump.sound form.kind
      · apply emitThen?_eq hfound.sound form.kind
        rfl
    | false =>
      dsimp only
      rw [if_neg Bool.false_ne_true]
      -- lost, what there is of the piece is emitted, and an end marker
      apply Emitter.ite_eq_map
      · apply emitThen?_eq hfound.sound form.kind
        rfl
      · rfl

/-- A character constant passes its checks. -/
theorem scanChar?_eq (h : s.cursor.Sound) : s.scanChar? = s.scanChar.map some := by
  unfold scanChar? scanChar
  rw [h.readChar?_eq, Emitter.guarding_some]
  cases hread : s.cursor.readChar with
  | mk closed c =>
    cases closed with
    | true => exact emit?_eq ((Cursor.Onward.refl h).readChar hread).sound .char
    | false => rfl

/-- A number passes its checks, also one that is spoiled. -/
theorem scanMagnitude?_eq (h : c.Sound) : s.scanMagnitude? c = (s.scanMagnitude c).map some := by
  have hmagnitude := (Cursor.Onward.refl h).op Cursor.local_readMagnitude
  unfold scanMagnitude? scanMagnitude
  rw [h.readMagnitude?_eq, Emitter.guarding_some, hmagnitude.sound.peek?_eq,
    Emitter.guarding_some]
  cases hhead : c.readMagnitude.head? with
  | none => exact emit?_eq hmagnitude.sound .number
  | some r =>
    refine Emitter.ite_eq_map ?_ (emit?_eq hmagnitude.sound .number)
    -- the rune that spoils the number is read into the message
    rw [hmagnitude.sound.read?_of_head hhead, Emitter.guarding_some]
    dsimp only
    rw [(hmagnitude.past hhead).sound.text?_eq, Emitter.guarding_some]

/-- A number with a sign passes its checks, or without one. -/
theorem scanNumber?_eq (h : s.cursor.Sound) : s.scanNumber? = s.scanNumber.map some := by
  cases haccept : s.cursor.accept Cursor.isSign with
  | mk signed c =>
    have hsound : c.Sound := ((Cursor.Onward.refl h).accept Cursor.solid_isSign haccept).sound
    rw [scanNumber_eq haccept, scanNumber?, h.accept?_eq, Emitter.guarding_some, haccept]
    dsimp only
    cases signed with
    | false =>
      rw [if_neg Bool.false_ne_true, Bool.false_and, if_neg Bool.false_ne_true]
      exact scanMagnitude?_eq hsound
    | true =>
      -- behind a sign one looks ahead before the number begins
      rw [if_pos rfl, hsound.peek?_eq, Emitter.guarding_some, Bool.true_and]
      cases c.head?.any continuesSign with
      | true =>
        rw [if_pos rfl, Bool.not_true, if_neg Bool.false_ne_true]
        exact scanMagnitude?_eq hsound
      | false =>
        rw [if_neg Bool.false_ne_true, Bool.not_false, if_pos rfl]
        exact emit?_eq hsound .literal

/-- A word passes its checks. -/
theorem scanWord?_eq (h : s.cursor.Sound) : s.scanWord? = s.scanWord.map some := by
  have hskip := ((Cursor.Onward.refl h).skip continuesWord).sound
  unfold scanWord? scanWord
  rw [h.skip?_eq, Emitter.guarding_some, hskip.peek?_eq, Emitter.guarding_some, hskip.text?_eq,
    Emitter.guarding_some]
  dsimp only
  cases (s.cursor.skip continuesWord).head? with
  | none => exact emit?_eq hskip _
  | some r => exact Emitter.ite_eq_map (emit?_eq hskip _) rfl

/-- **No check fails.** With a sound cursor, the scanner with checks does what the scanner without
them does. -/
theorem step?_eq (h : s.cursor.Sound) (state : ScanState) :
    s.step? state = (s.step state).map some := by
  cases state with
  | neutral => exact scanNeutral?_eq h
  | blanks => exact scanTrivia?_eq h .space isBlank
  | lineEnds => exact scanTrivia?_eq h .endOfLine isLineEnd
  | string => exact scanDelimited?_eq h Encloses.string.closer_ne_nil
  | quote => exact scanDelimited?_eq h Encloses.quote.closer_ne_nil
  | char => exact scanChar?_eq h
  | lineComment => exact scanDelimited?_eq h Encloses.lineComment.closer_ne_nil
  | blockComment => exact scanDelimited?_eq h Encloses.blockComment.closer_ne_nil
  | number => exact scanNumber?_eq h
  | word => exact scanWord?_eq h

/-! ### Walks -/

/-- One step of a walk: the tokens that were sent, taken or not, and the scanner after it. -/
structure Visit where
  sent : List Token
  scanner : Scanner

section Walk

variable {σ : Type} [TokenSink σ]

/-- Run the given states one after another, whatever each of them names as its successor. -/
def walk : List ScanState → Scanner → σ → List Visit
  | [], _, _ => []
  | state :: states, s, sink =>
    let s' := ((s.step state).into sink).1.2
    ⟨(s.step state).offers sink, s'⟩ :: walk states s' ((s.step state).into sink).2

/-- The same with all checks. -/
def walk? : List ScanState → Scanner → σ → Option (List Visit)
  | [], _, _ => some []
  | state :: states, s, sink =>
    match (s.step? state).into sink with
    | (none, _) => none
    | (some (_, s'), sink') =>
      (walk? states s' sink').map (⟨(s.step? state).offers sink, s'⟩ :: ·)

/-- What one step of a walk keeps. -/
theorem sound_visit (h : s.cursor.Sound) (state : ScanState) (sink : σ) :
    s.cursor.Onward ((s.step state).into sink).1.2.cursor ∧
      Sent s.cursor.source s.cursor.mark ((s.step state).into sink).1.2.cursor.mark
        ((s.step state).offers sink) :=
  (safe_step h state).offers sink

/-- No check fails on a walk. -/
theorem walk?_eq (h : s.cursor.Sound) (states : List ScanState) (sink : σ) :
    walk? states s sink = some (walk states s sink) := by
  induction states generalizing s sink with
  | nil => rfl
  | cons state states ih =>
    -- the step keeps the cursor sound, for the walk after it
    have hnext := ih (sound_visit h state sink).1.sound ((s.step state).into sink).2
    rw [walk?, step?_eq h, Emitter.into_map]
    dsimp only
    rw [hnext, Option.map_some, Emitter.offers_map, walk]

/-- A walk moves on through its source. -/
theorem onward_of_mem_walk (h : s.cursor.Sound) {states : List ScanState} {sink : σ} :
    ∀ v ∈ walk states s sink, s.cursor.Onward v.scanner.cursor := by
  induction states generalizing s sink with
  | nil =>
    intro v hv
    cases hv
  | cons state states ih =>
    have hfirst := (sound_visit h state sink).1
    intro v hv
    obtain rfl | hv := List.mem_cons.1 hv
    · exact hfirst
    · exact hfirst.trans (ih hfirst.sound v hv)

/-- The position never moves back on a walk. -/
theorem pairwise_offset_walk (h : s.cursor.Sound) (states : List ScanState) (sink : σ) :
    (walk states s sink).Pairwise fun v w => v.scanner.cursor.offset ≤ w.scanner.cursor.offset := by
  induction states generalizing s sink with
  | nil => exact .nil
  | cons state states ih =>
    have hfirst := (sound_visit h state sink).1
    refine .cons (fun v hv => ?_) (ih hfirst.sound _)
    exact (onward_of_mem_walk hfirst.sound v hv).offset_le

/-- The tokens of a walk, from the mark that it starts with up to the one it ends with. -/
theorem sent_walk (h : s.cursor.Sound) (states : List ScanState) (sink : σ) :
    ∃ high, s.cursor.mark ≤ high ∧
      Sent s.cursor.source s.cursor.mark high ((walk states s sink).flatMap Visit.sent) := by
  induction states generalizing s sink with
  | nil => exact ⟨_, Nat.le_refl _, .nil⟩
  | cons state states ih =>
    obtain ⟨hfirst, hsent⟩ := sound_visit h state sink
    obtain ⟨high, hhigh, hrest⟩ := ih hfirst.sound ((s.step state).into sink).2
    -- both parts are tokens of the one source
    rw [hfirst.source_eq] at hrest
    exact ⟨high, hfirst.mark_le.trans hhigh, hsent.append hrest hfirst.mark_le hhigh⟩

/-- **Any walk is sound.** Let any states be run in any order from the start of a source, into any
sink. No check fails on the way. After each step the mark and the position lie between runes of the
source, the mark not past the position, and the position never moves back. Every token stands in the
source, and those that are neither failures nor end markers come one after another in it. -/
theorem walk_sound (source : String) (options : ScanOptions) (states : List ScanState) (sink : σ) :
    let visits := walk states (ofSource source options) sink
    let sent := visits.flatMap Visit.sent
    walk? states (ofSource source options) sink = some visits ∧
      (∀ v ∈ visits, v.scanner.cursor.source = source ∧
        v.scanner.cursor.mark ≤ v.scanner.cursor.offset ∧
        v.scanner.cursor.offset ≤ source.utf8ByteSize ∧
        Boundary source v.scanner.cursor.mark ∧ Boundary source v.scanner.cursor.offset) ∧
      visits.Pairwise (fun v w => v.scanner.cursor.offset ≤ w.scanner.cursor.offset) ∧
      (∀ t ∈ sent, t.span.start ≤ t.span.stop ∧ t.span.stop ≤ source.utf8ByteSize ∧
        Boundary source t.span.start ∧ Boundary source t.span.stop) ∧
      (∀ t ∈ sent, t.kind ≠ .error → t.kind ≠ .endMarker →
        t.text = slice source t.span.start t.span.stop) ∧
      (sent.filter fun t => t.kind != .error && t.kind != .endMarker).Pairwise
        fun t u => t.span.stop ≤ u.span.start := by
  have hsound : (ofSource source options).cursor.Sound := Cursor.sound_ofSource source
  obtain ⟨high, -, hsent⟩ := sent_walk hsound states sink
  intro visits sent
  refine ⟨walk?_eq hsound states sink, fun v hv => ?_, pairwise_offset_walk hsound states sink,
    fun t ht => ?_, fun t ht herror hend => ?_, ?_⟩
  · have honward := onward_of_mem_walk hsound v hv
    have hsource : v.scanner.cursor.source = source := honward.source_eq
    have hoffset := honward.sound.boundary_offset
    have hmark := honward.sound.boundary_mark
    rw [hsource] at hoffset hmark
    exact ⟨hsource, honward.sound.mark_le_offset, hoffset.le, hmark, hoffset⟩
  · have hsits := hsent.sits t ht
    exact ⟨hsits.start_le, hsits.stop_boundary.le, hsits.start_boundary, hsits.stop_boundary⟩
  · exact (hsent.sits t ht).text_eq (TokenKind.isFinal_eq_false herror hend)
  · refine List.pairwise_filter.2 (hsent.ordered.imp fun {t u} hordered ht hu => ?_)
    rw [Bool.and_eq_true, bne_iff_ne, bne_iff_ne] at ht hu
    exact hordered (TokenKind.isFinal_eq_false ht.1 ht.2) (TokenKind.isFinal_eq_false hu.1 hu.2)

end Walk

end Scanner

end DeclFront
