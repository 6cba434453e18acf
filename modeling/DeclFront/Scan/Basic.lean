import DeclFront.Text.Cursor
import DeclFront.Text.Letter
import DeclFront.Text.Quoted
import DeclFront.Token.Emitter

/-!
# Scanners

A scanner is a cursor together with the number of brackets of each kind still open. It works in
small states, each of which reads some input, may emit tokens, and names the state that follows;
naming none halts the scan. This module has the scanner, its states, and the few ways in which a
state can end.

A state that emits asks for its token to be taken. If it is not, the state ends at once and the
scan halts: nothing that would come after the token is done. The message token of a failure is the
last thing a scan emits, so there the answer does not matter.
-/

namespace DeclFront

/-- The states of a scan. -/
inductive ScanState where
  /-- Between tokens: the next rune decides. -/
  | neutral
  /-- A run of blanks and tabs. -/
  | blanks
  /-- A run of line ends. -/
  | lineEnds
  /-- Inside a string, after its opening quote. -/
  | string
  /-- Inside a backtick quote, after its opening quote. -/
  | quote
  /-- Inside a character constant, after its opening quote. -/
  | char
  /-- Inside a line comment, after its two slashes. -/
  | lineComment
  /-- Inside a block comment, after its opener. -/
  | blockComment
  /-- At the sign or first digit of a number. -/
  | number
  /-- At the first rune of a word. -/
  | word
deriving DecidableEq, Repr, Inhabited

/-- What a scan reports beyond the tokens of the grammar. -/
structure ScanOptions where
  /-- Whether white space is reported as tokens. -/
  keepTrivia : Bool
deriving DecidableEq, Repr, Inhabited

/-- A scan in progress. -/
structure Scanner where
  cursor : Cursor
  options : ScanOptions
  /-- How many `(` are open. -/
  parens : Nat
  /-- How many braces are open. -/
  braces : Nat
deriving Repr, Inhabited

/-- What a state does: it emits tokens, names the next state or none, and leaves a scanner. -/
abbrev ScanStep := Emitter (Option ScanState × Scanner)

namespace Scanner

/-- A scanner at the start of a source. -/
def ofSource (source : String) (options : ScanOptions) : Scanner :=
  ⟨Cursor.ofSource source, options, 0, 0⟩

/-- How many brackets of a pair are open. -/
def depth (s : Scanner) : Bracket → Nat
  | .paren => s.parens
  | .brace => s.braces

/-- The scanner with another number of open brackets of a pair. -/
def setDepth (s : Scanner) : Bracket → Nat → Scanner
  | .paren, n => { s with parens := n }
  | .brace, n => { s with braces := n }

/-- The scanner with its cursor elsewhere. -/
def moveTo (s : Scanner) (c : Cursor) : Scanner :=
  { s with cursor := c }

/-! ### How a state ends -/

/-- Go on in another state, with the cursor at `c`. -/
def goto (s : Scanner) (c : Cursor) (next : ScanState) : ScanStep :=
  .halt (some next, s.moveTo c)

/-- Emit the piece collected by `c` as a token, and go on with `next` if it is taken. -/
def emitThen (s : Scanner) (c : Cursor) (kind : TokenKind) (next : Scanner → ScanStep) : ScanStep :=
  .offer ⟨kind, c.pending, c.span⟩ fun taken =>
    if taken then next (s.moveTo c.discard) else .halt (none, s.moveTo c.discard)

/-- Emit the piece collected by `c` as a token, and be neutral again. -/
def emit (s : Scanner) (c : Cursor) (kind : TokenKind) : ScanStep :=
  s.emitThen c kind fun s => .halt (some .neutral, s)

/-- Emit a message about the span `span` and halt. -/
def fail (s : Scanner) (c : Cursor) (message : String) (span : Span) : ScanStep :=
  .offer ⟨.error, message, span⟩ fun _ => .halt (none, s.moveTo c)

/-- Emit an end marker at the position of `c` and halt. -/
def emitEnd (s : Scanner) (c : Cursor) : ScanStep :=
  .offer ⟨.endMarker, "", Span.point c.offset⟩ fun _ => .halt (none, s.moveTo c)

end Scanner

end DeclFront
