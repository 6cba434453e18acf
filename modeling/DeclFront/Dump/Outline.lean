import DeclFront.Text.Quoted

/-!
# Outlines

An outline shows a value by the names of its parts. Each part stands on a line of its own, four
blanks deeper than what it belongs to, and is followed by a comma, the last one too; an empty list
stays on its line.

As in quoted texts, which runes are hidden is a parameter of the layout; `Outline.pretty` chooses
those without a shape of their own.
-/

namespace DeclFront

/-- A value as an outline shows it. -/
inductive Outline where
  /-- A name that stands for itself. -/
  | name (name : String)
  /-- A text, shown between quotes. -/
  | text (s : String)
  /-- A list of items. -/
  | list (items : List Outline)
  /-- A named record of named fields. -/
  | record (name : String) (fields : List (String × Outline))
  /-- A named alternative that holds one value. -/
  | tagged (name : String) (value : Outline)
deriving Repr, Inhabited

namespace Outline

/-- A new line, indented for the given level. -/
def newline (level : Nat) : List Char :=
  '\n' :: List.replicate (4 * level) ' '

mutual

/-- A value whose first line stands at the given level. -/
def write (hidden : Char → Bool) (level : Nat) : Outline → List Char
  | name n => n.toList
  | text s => quoteWith hidden '"' s.toList
  | list [] => ['[', ']']
  | list (item :: items) =>
    '[' :: (writeItems hidden (level + 1) (item :: items) ++ newline level ++ [']'])
  | record n fields =>
    n.toList ++ [' ', '{'] ++ writeFields hidden (level + 1) fields ++ newline level ++ ['}']
  | tagged n value =>
    n.toList ++ ['('] ++ newline (level + 1) ++ write hidden (level + 1) value ++ [','] ++
      newline level ++ [')']

/-- Items, each on its line. -/
def writeItems (hidden : Char → Bool) (level : Nat) : List Outline → List Char
  | [] => []
  | item :: items =>
    newline level ++ write hidden level item ++ [','] ++ writeItems hidden level items

/-- Fields, each on its line. -/
def writeFields (hidden : Char → Bool) (level : Nat) : List (String × Outline) → List Char
  | [] => []
  | (field, value) :: fields =>
    newline level ++ field.toList ++ [':', ' '] ++ write hidden level value ++ [','] ++
      writeFields hidden level fields

end

/-- The text of an outline, where `hidden` says which runes are given by their code point. -/
def prettyWith (hidden : Char → Bool) (v : Outline) : String :=
  String.ofList (v.write hidden 0)

/-- The text of an outline. -/
def pretty (v : Outline) : String :=
  v.prettyWith isHidden

example : (tagged "Some" (list [text "a"])).pretty =
    "Some(\n    [\n        \"a\",\n    ],\n)" := by
  decide +kernel

end Outline

end DeclFront
