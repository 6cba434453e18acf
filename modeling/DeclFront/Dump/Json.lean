import DeclFront.Text.Quoted

/-!
# JSON dumps

The part of JSON that dumps need: numbers, texts, lists and records, with the fields of a record in
a fixed order. Dumps are laid out for reading, one item or field on a line, two blanks deeper at
each level; an empty list or record stays on its line.

Only quotes, backslashes and the controls below the space are escaped in a text.
-/

namespace DeclFront

/-- A JSON value. -/
inductive Json where
  | number (n : Nat)
  | text (s : String)
  | list (items : List Json)
  | record (fields : List (String × Json))
deriving Repr, Inhabited

namespace Json

/-- The written form of a rune in a text. -/
def escapeRune (r : Char) : List Char :=
  if r = '"' then ['\\', '"']
  else if r = '\\' then ['\\', '\\']
  else if r = '\x08' then ['\\', 'b']
  else if r = '\t' then ['\\', 't']
  else if r = '\n' then ['\\', 'n']
  else if r = '\x0c' then ['\\', 'f']
  else if r = '\r' then ['\\', 'r']
  else if r.toNat < 0x20 then ['\\', 'u'] ++ (hexDigits r.toNat).leftpad 4 '0'
  else [r]

/-- A text between double quotes. -/
def writeText (s : String) : List Char :=
  '"' :: (s.toList.flatMap escapeRune ++ ['"'])

/-- A new line, indented for the given level. -/
def newline (level : Nat) : List Char :=
  '\n' :: List.replicate (2 * level) ' '

/-- The name of a field, up to its value. -/
def writeKey (key : String) : List Char :=
  writeText key ++ [':', ' ']

mutual

/-- A value whose first line stands at the given level. -/
def write (level : Nat) : Json → List Char
  | number n => Nat.toDigits 10 n
  | text s => writeText s
  | list [] => ['[', ']']
  | list (item :: items) =>
    '[' :: (newline (level + 1) ++ write (level + 1) item ++ writeItems (level + 1) items ++
      newline level ++ [']'])
  | record [] => ['{', '}']
  | record ((key, value) :: fields) =>
    '{' :: (newline (level + 1) ++ writeKey key ++ write (level + 1) value ++
      writeFields (level + 1) fields ++ newline level ++ ['}'])

/-- The items of a list after the first. -/
def writeItems (level : Nat) : List Json → List Char
  | [] => []
  | item :: items => ',' :: (newline level ++ write level item ++ writeItems level items)

/-- The fields of a record after the first. -/
def writeFields (level : Nat) : List (String × Json) → List Char
  | [] => []
  | (key, value) :: fields =>
    ',' :: (newline level ++ writeKey key ++ write level value ++ writeFields level fields)

end

/-- The text of a dump. -/
def pretty (v : Json) : String :=
  String.ofList (v.write 0)

example : (list [number 7, text "a\n", list []]).pretty = "[\n  7,\n  \"a\\n\",\n  []\n]" := by
  decide +kernel

end Json

end DeclFront
