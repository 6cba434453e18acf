import DeclFront.Scan.Basic

/-!
# Words and white space

A word is a run of word runes and points, so a dotted name is one word. What may stand directly
after it is limited: white space, the end of the source, or one of a few punctuation marks. White
space comes in runs of one sort, blanks or line ends, and is reported only on request.
-/

namespace DeclFront

/-- Whether a rune is a blank or a tab. -/
def isBlank (r : Char) : Bool :=
  r == ' ' || r == '\t'

/-- Whether a rune ends a line. -/
def isLineEnd (r : Char) : Bool :=
  r == '\r' || r == '\n'

/-- Whether a rune may continue a word. -/
def continuesWord (r : Char) : Bool :=
  isWordRune r || r == '.'

/-- Whether a rune may stand directly after a word. -/
def endsWord (r : Char) : Bool :=
  isBlank r || isLineEnd r || ['.', ',', '|', ':', ')', '('].contains r

namespace Scanner

/-- Scan a run of white space of one sort. -/
def scanTrivia (s : Scanner) (kind : TokenKind) (p : Char → Bool) : ScanStep :=
  let c := s.cursor.skip p
  if s.options.keepTrivia then s.emit c kind else s.goto c.discard .neutral

/-- Scan a word. -/
def scanWord (s : Scanner) : ScanStep :=
  let c := s.cursor.skip continuesWord
  match c.head? with
  | none => s.emit c (.ofWord c.pending)
  | some r =>
    if endsWord r then s.emit c (.ofWord c.pending)
    else s.fail c ("unexpected character " ++ nameRune r) ⟨c.offset, c.offset + r.utf8Size⟩

end Scanner

end DeclFront
