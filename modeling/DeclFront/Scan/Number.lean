import DeclFront.Scan.Basic

/-!
# Numbers

A number is an optional sign, digits in one of four notations, an optional fraction, an optional
exponent, and an optional `i` that marks it imaginary. Only its extent matters here: the text is
kept and no value is computed.

Every part after the sign may be empty, so what makes a number one is where it stops. A sign with
nothing word-like after it is plain punctuation, and a word rune directly after the number is an
error: `1a` is not a number followed by a word.
-/

namespace DeclFront

/-- A notation of digits, by the marker after a leading zero. -/
inductive Radix where
  | decimal
  | hexadecimal
  | octal
  | binary
deriving DecidableEq, Repr, Inhabited

namespace Radix

/-- Whether a rune is a digit of the notation. Octal and binary digits may be grouped by
underscores. -/
def isDigit : Radix → Char → Bool
  | decimal, r => isDecimal r
  | hexadecimal, r =>
    isDecimal r || (decide ('a' ≤ r) && decide (r ≤ 'f')) || (decide ('A' ≤ r) && decide (r ≤ 'F'))
  | octal, r => (decide ('0' ≤ r) && decide (r ≤ '7')) || r == '_'
  | binary, r => r == '0' || r == '1' || r == '_'

/-- The notation that the rune after a leading zero announces. -/
def ofMarker? (r : Char) : Option Radix :=
  if r == 'x' || r == 'X' then some hexadecimal
  else if r == 'o' || r == 'O' then some octal
  else if r == 'b' || r == 'B' then some binary
  else none

end Radix

namespace Cursor

/-- Whether a rune is a sign. -/
def isSign (r : Char) : Bool :=
  r == '+' || r == '-'

/-- Read a leading zero and the marker after it, if they are there, for the notation of the digits
that follow. -/
def readRadix (c : Cursor) : Radix × Cursor :=
  match c.accept (· == '0') with
  | (false, c) => (.decimal, c)
  | (true, c) =>
    match c.head? with
    | none => (.decimal, c.settle)
    | some r =>
      match Radix.ofMarker? r with
      | some radix => (radix, c.past r)
      | none => (.decimal, c.settle)

/-- Read a point and the digits after it, if there is a point. -/
def readFraction (c : Cursor) (radix : Radix) : Cursor :=
  match c.accept (· == '.') with
  | (false, c) => c
  | (true, c) => c.skip radix.isDigit

/-- Read an exponent, if there is one: its letter, a sign or none, and decimal digits. -/
def readExponent (c : Cursor) : Cursor :=
  match c.accept fun r => r == 'e' || r == 'E' with
  | (false, c) => c
  | (true, c) => (c.skipOne isSign).skip isDecimal

/-- Read what follows the sign of a number. -/
def readMagnitude (c : Cursor) : Cursor :=
  let (radix, c) := c.readRadix
  (((c.skip radix.isDigit).readFraction radix).readExponent).skipOne (· == 'i')

end Cursor

namespace Scanner

/-- Whether a sign directly before the rune `r` belongs to a number. -/
def continuesSign (r : Char) : Bool :=
  r == '.' || isWordRune r

/-- Scan a number. -/
def scanNumber (s : Scanner) : ScanStep :=
  let (signed, c) := s.cursor.accept Cursor.isSign
  if signed && !c.head?.any continuesSign then
    s.emit c .literal
  else
    let c := c.readMagnitude
    match c.head? with
    | some r =>
      if isWordRune r then
        let c := c.past r
        s.fail c ("bad number syntax: " ++ quoteText c.pending) c.span
      else
        s.emit c .number
    | none => s.emit c .number

end Scanner

end DeclFront
