import DeclFront.Scan.Basic

/-!
# Delimited pieces

Strings, backtick quotes and both kinds of comment run up to a closing delimiter. They differ in
three ways, which `Delimited` records: the delimiter, whether it is part of the token, and whether
a backslash hides the rune after it. When the source ends first, what was read becomes the token,
an end marker follows, and the scan halts.

A character constant keeps both quotes, must end on its line, and is an error otherwise, so it has
a scan of its own.
-/

namespace DeclFront

/-- A piece that runs up to a closing delimiter. -/
structure Delimited where
  kind : TokenKind
  closer : List Char
  /-- Whether the delimiter is part of the token. -/
  keepsCloser : Bool
  /-- Whether a backslash hides the rune after it. -/
  escapes : Bool
deriving DecidableEq, Repr

namespace Delimited

/-- A string: the quotes are dropped, and a backslash hides the rune after it. -/
def string : Delimited :=
  ⟨.string, ['"'], false, true⟩

/-- A backtick quote: the quotes are dropped. -/
def quote : Delimited :=
  ⟨.quote, ['\x60'], false, false⟩

/-- A line comment: it ends before the line feed, which is dropped. -/
def lineComment : Delimited :=
  ⟨.comment, ['\n'], false, false⟩

/-- A block comment: its closer belongs to it. -/
def blockComment : Delimited :=
  ⟨.comment, ['*', '/'], true, false⟩

end Delimited

namespace Cursor

/-- Reading a rune, and another after it if there is one, leaves fewer bytes. -/
theorem remaining_read_past_lt {c : Cursor} {r : Char} (h : c.head? = some r) :
    (c.past r).read.2.remaining < c.remaining := by
  have hlt : (c.past r).remaining < c.remaining := remaining_past_lt h
  unfold read
  split
  · next q hq => exact Nat.lt_trans (remaining_past_lt hq) hlt
  · exact hlt

/-- Read up to the closing delimiter of `form`. The answer says whether it was found; the cursor
then stands before it, and otherwise at the end of the source. -/
def seek (form : Delimited) (c : Cursor) : Bool × Cursor :=
  if c.lookingAt form.closer then (true, c)
  else
    match h : c.head? with
    | none => (false, c.settle)
    | some r =>
      have _one := remaining_past_lt h
      have _two := remaining_read_past_lt h
      if form.escapes && r == '\\' then seek form (c.past r).read.2
      else seek form (c.past r)
termination_by c.remaining

/-- Read a character constant from after its opening quote. The answer says whether its closing
quote was read; reading stops after a line feed and at the end of the source. -/
def readChar (c : Cursor) : Bool × Cursor :=
  match h : c.head? with
  | none => (false, c.settle)
  | some r =>
    have _one := remaining_past_lt h
    if r == '\\' then
      match h' : (c.past r).head? with
      | none => (false, (c.past r).settle)
      | some q =>
        have _two := Nat.lt_trans (remaining_past_lt h') (remaining_past_lt h)
        if q == '\n' then (false, (c.past r).past q)
        else readChar ((c.past r).past q)
    else if r == '\n' then (false, c.past r)
    else if r == '\'' then (true, c.past r)
    else readChar (c.past r)
termination_by c.remaining

end Cursor

namespace Scanner

/-- Scan a delimited piece from after its opener. -/
def scanDelimited (s : Scanner) (form : Delimited) : ScanStep :=
  match s.cursor.seek form with
  | (true, c) =>
    let size := byteLength form.closer
    if form.keepsCloser then
      s.emit (c.jump size) form.kind
    else
      s.emitThen c form.kind fun s => s.goto (s.cursor.jump size).discard .neutral
  | (false, c) =>
    if c.hasPending then
      s.emitThen c form.kind fun s => s.emitEnd s.cursor
    else
      s.emitEnd c

/-- Scan a character constant from after its opening quote. -/
def scanChar (s : Scanner) : ScanStep :=
  match s.cursor.readChar with
  | (true, c) => s.emit c .char
  | (false, c) => s.fail c "unterminated character constant" c.span

end Scanner

end DeclFront
