import DeclFront.Scan.Delimited
import DeclFront.Scan.Number
import DeclFront.Scan.Word

/-!
# Scanning a source

The neutral state looks at one rune and either emits a token of that rune alone or hands over to
the state for what begins there. `Scanner.step` runs any state from any scanner; `Scanner.run`
chains the states from the neutral one until a state names no successor.

A run takes at most two steps for each rune and one at the end: a neutral step either reads a rune
or hands over to a state that does. So `Scanner.run` is given twice the number of unread bytes, and
one, as its bound, and never meets it.
-/

namespace DeclFront

namespace Scanner

/-- Whether a rune is a visible rune of ASCII. -/
def isGraphic (r : Char) : Bool :=
  decide ('!' ≤ r) && decide (r ≤ '~')

/-- Emit an opening bracket. It counts as open even if its token is not taken. -/
def scanOpening (s : Scanner) (c : Cursor) (b : Bracket) : ScanStep :=
  (s.setDepth b (s.depth b + 1)).emit c .bracketOpen

/-- Emit a closing bracket, if one of its pair is open. -/
def scanClosing (s : Scanner) (c : Cursor) (b : Bracket) : ScanStep :=
  match s.depth b with
  | 0 => s.fail c ("unexpected character " ++ nameRune b.closing) c.span
  | n + 1 => (s.setDepth b n).emit c .bracketClose

/-- After a slash: a comment, or the slash as punctuation. -/
def scanSlash (s : Scanner) (c : Cursor) : ScanStep :=
  match c.head? with
  | some '/' => s.goto (c.past '/') .lineComment
  | some '*' => s.goto (c.past '*') .blockComment
  | _ => s.emit c .literal

/-- Decide by the next rune what begins. -/
def scanNeutral (s : Scanner) : ScanStep :=
  match s.cursor.head? with
  | none =>
    let c := s.cursor.settle
    if s.parens ≠ 0 ∨ s.braces ≠ 0 then s.fail c "unclosed bracket" (Span.point c.offset)
    else .halt (none, s.moveTo c)
  | some r =>
    let c := s.cursor.past r
    if isLineEnd r then s.goto s.cursor.settle .lineEnds
    else if isBlank r then s.goto s.cursor.settle .blanks
    else if r = '"' then s.goto c.discard .string
    else if r = '\x60' then s.goto c.discard .quote
    else if r = '\'' then s.goto c .char
    else if r = '/' then s.scanSlash c
    else if Cursor.isSign r || isDecimal r then s.goto s.cursor.settle .number
    else if isWordRune r then s.goto s.cursor.settle .word
    else if r = '(' then s.scanOpening c .paren
    else if r = '{' then s.scanOpening c .brace
    else if r = ')' then s.scanClosing c .paren
    else if r = '}' then s.scanClosing c .brace
    else if isGraphic r then s.emit c .literal
    else s.fail c ("unrecognized character " ++ nameRune r) c.span

/-- Run one state. -/
def step (s : Scanner) : ScanState → ScanStep
  | .neutral => s.scanNeutral
  | .blanks => s.scanTrivia .space isBlank
  | .lineEnds => s.scanTrivia .endOfLine isLineEnd
  | .string => s.scanDelimited .string
  | .quote => s.scanDelimited .quote
  | .char => s.scanChar
  | .lineComment => s.scanDelimited .lineComment
  | .blockComment => s.scanDelimited .blockComment
  | .number => s.scanNumber
  | .word => s.scanWord

/-- Run at most `bound` states, from `state` on, until one names no successor. -/
def drive : Nat → Scanner → Option ScanState → Emitter Scanner
  | bound + 1, s, some state => (s.step state).bind fun (next, s) => drive bound s next
  | _, s, _ => .halt s

/-- Scan on from the neutral state until the scan halts. -/
def run (s : Scanner) : Emitter Scanner :=
  drive (2 * s.cursor.remaining + 1) s (some .neutral)

end Scanner

/-- The tokens of a source, in order. An error or an end marker can only be the last of them. -/
def lexWith (options : ScanOptions) (source : String) : List Token :=
  (Scanner.ofSource source options).run.tokens

/-- The tokens of a source, without its white space. -/
def lex (source : String) : List Token :=
  lexWith ⟨false⟩ source

end DeclFront
