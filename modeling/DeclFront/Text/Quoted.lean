import DeclFront.Text.Visible

/-!
# Quoted texts and runes

Messages and dumps show text between quotes, in a form that fits on one line and from which the
text can be read back. Five runes have a two-rune escape, the surrounding quote has another, every
hidden rune is written as its code point in braces, and all other runes stand for themselves.

Which runes are hidden is a parameter of `escape`, because nothing about the form depends on it:
whatever the choice, distinct texts have distinct forms.
-/

namespace DeclFront

/-- A number in lower-case hexadecimal, without leading zeros. -/
def hexDigits (n : Nat) : List Char :=
  Nat.toDigits 16 n

/-- The written form of one rune between quotes `quote`, where `hidden` says which runes are given
by their code point. -/
def escape (hidden : Char → Bool) (quote r : Char) : List Char :=
  if r = '\x00' then ['\\', '0']
  else if r = '\t' then ['\\', 't']
  else if r = '\r' then ['\\', 'r']
  else if r = '\n' then ['\\', 'n']
  else if r = '\\' then ['\\', '\\']
  else if r = quote then ['\\', quote]
  else if hidden r then ['\\', 'u', '{'] ++ hexDigits r.toNat ++ ['}']
  else [r]

/-- A sequence of runes between quotes. -/
def quoteWith (hidden : Char → Bool) (quote : Char) (runes : List Char) : List Char :=
  quote :: (runes.flatMap (escape hidden quote) ++ [quote])

/-- A text between double quotes. -/
def quoteText (text : String) : String :=
  String.ofList (quoteWith isHidden '"' text.toList)

/-- A rune between single quotes. -/
def quoteRune (r : Char) : String :=
  String.ofList (quoteWith isHidden '\'' [r])

/-- A rune named for a message: its code point in upper-case hexadecimal, at least four digits
wide, and the rune itself between single quotes. -/
def nameRune (r : Char) : String :=
  "U+" ++ String.ofList (((hexDigits r.toNat).map Char.toUpper).leftpad 4 '0') ++ " " ++ quoteRune r

example : quoteText "say \"hi\"\t\u200b'" = "\"say \\\"hi\\\"\\t\\u\x7b200b\x7d'\"" := by
  decide +kernel

example : nameRune ')' = "U+0029 ')'" := by decide +kernel

example : nameRune '\'' = "U+0027 '\\''" := by decide +kernel

/-- A rune with no special role, and not hidden, stands for itself. -/
theorem escape_plain {hidden : Char → Bool} {quote r : Char} (hr : hidden r = false)
    (hnul : r ≠ '\x00') (htab : r ≠ '\t') (hcr : r ≠ '\r') (hlf : r ≠ '\n') (hbs : r ≠ '\\')
    (hq : r ≠ quote) : escape hidden quote r = [r] := by
  simp [escape, hr, hnul, htab, hcr, hlf, hbs, hq]

/-- No rune has an empty written form. -/
theorem escape_ne_nil (hidden : Char → Bool) (quote r : Char) : escape hidden quote r ≠ [] := by
  unfold escape
  repeat' split
  all_goals simp

end DeclFront
