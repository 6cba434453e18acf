/-!
# Reserved words

The vocabulary is one table. A row gives a spelling, the category a scanner reports for it, and the
group under which the language describes it. Look-up is by exact spelling: case matters, and a part
of a word is never looked up.

Two rows, `:=` and `=`, are no words, so scanning never finds them; they belong to the vocabulary
all the same.
-/

namespace DeclFront

/-- What a reserved spelling does in a statement. -/
inductive Category where
  | letBinding
  | setBinding
  | conditional
  | function
  | typeName
deriving DecidableEq, Repr, Inhabited

/-- The family of reserved spellings to which a row of the vocabulary belongs. -/
inductive Family where
  | assignment
  | statement
  | type
deriving DecidableEq, Repr, Inhabited

/-- A row of the vocabulary. -/
structure ReservedWord where
  spelling : String
  category : Category
  family : Family
deriving DecidableEq, Repr

/-- The reserved words of the language. -/
def vocabulary : List ReservedWord :=
  [⟨":=", .letBinding, .assignment⟩,
   ⟨"=", .setBinding, .assignment⟩,
   ⟨"if", .conditional, .statement⟩,
   ⟨"func", .function, .statement⟩,
   ⟨"byte", .typeName, .type⟩,
   ⟨"int16", .typeName, .type⟩,
   ⟨"int32", .typeName, .type⟩,
   ⟨"int64", .typeName, .type⟩,
   ⟨"decimal", .typeName, .type⟩,
   ⟨"currency", .typeName, .type⟩,
   ⟨"date", .typeName, .type⟩,
   ⟨"string", .typeName, .type⟩,
   ⟨"charset", .typeName, .type⟩,
   ⟨"object", .typeName, .type⟩,
   ⟨"bool", .typeName, .type⟩]

namespace Category

/-- The category of a spelling, if it is reserved. -/
def ofSpelling? (spelling : String) : Option Category :=
  (vocabulary.find? (·.spelling == spelling)).map (·.category)

/-- The rows of a category, in the order of the vocabulary. -/
def rows (c : Category) : List ReservedWord :=
  vocabulary.filter (·.category == c)

/-- The spellings of a category, in the order of the vocabulary. -/
def spellings (c : Category) : List String :=
  c.rows.map (·.spelling)

/-- A reserved spelling is a spelling of its category. -/
theorem mem_spellings_of_ofSpelling? {spelling : String} {c : Category}
    (h : ofSpelling? spelling = some c) : spelling ∈ c.spellings := by
  obtain ⟨row, hfind, rfl⟩ := Option.map_eq_some_iff.1 h
  have hmem : row ∈ vocabulary := List.mem_of_find?_eq_some hfind
  have hspell : row.spelling = spelling := by simpa using List.find?_some hfind
  exact List.mem_map.2 ⟨row, List.mem_filter.2 ⟨hmem, by simp⟩, hspell⟩

end Category

end DeclFront
