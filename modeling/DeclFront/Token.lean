import DeclFront.Span
import DeclFront.Vocabulary

/-!
# Tokens

A token is a classified piece of a source together with its place. Failure and the end of a
truncated source are tokens too, so that one list tells the whole outcome of a scan:

* an `error` token carries a message in place of text, and nothing follows it;
* an `endMarker` has no text and says that the source ended inside a delimited piece.

The two bracket pairs share the kinds `bracketOpen` and `bracketClose`; the text tells them apart,
and `Token.opens` and `Token.closes` look at both.
-/

namespace DeclFront

/-- The class of a token. -/
inductive TokenKind where
  | error
  | literal
  | bool
  | char
  | endMarker
  | endOfLine
  | bracketOpen
  | bracketClose
  | number
  | space
  | identifier
  | quote
  | string
  | comment
  | keyword (category : Category)
deriving DecidableEq, Repr, Inhabited

namespace TokenKind

/-- The rank below every keyword and above every other kind. No kind has this rank. -/
def keywordBoundary : Nat := 14

/-- The rank of a kind. Keywords rank above the boundary, all other kinds below it. -/
def rank : TokenKind → Nat
  | error => 0
  | literal => 1
  | bool => 2
  | char => 3
  | endMarker => 4
  | endOfLine => 5
  | bracketOpen => 6
  | bracketClose => 7
  | number => 8
  | space => 9
  | identifier => 10
  | quote => 11
  | string => 12
  | comment => 13
  | keyword .typeName => 15
  | keyword .function => 16
  | keyword .letBinding => 17
  | keyword .setBinding => 18
  | keyword .conditional => 19

/-- Whether the kind is that of a reserved word, decided by rank. -/
def isKeyword (k : TokenKind) : Bool :=
  decide (keywordBoundary < k.rank)

/-- Whether the kind is white space: blanks or line ends. -/
def isTrivia (k : TokenKind) : Bool :=
  k == space || k == endOfLine

/-- The name under which listings show a kind. -/
def name : TokenKind → String
  | error => "Error"
  | literal => "Literal"
  | bool => "Bool"
  | char => "Char"
  | endMarker => "EndMarker"
  | endOfLine => "EndOfLine"
  | bracketOpen => "BracketOpen"
  | bracketClose => "BracketClose"
  | number => "Number"
  | space => "Space"
  | identifier => "Identifier"
  | quote => "Quote"
  | string => "String"
  | comment => "Comment"
  | keyword .typeName => "TypeKeyword"
  | keyword .function => "FuncKeyword"
  | keyword .letBinding => "LetKeyword"
  | keyword .setBinding => "SetKeyword"
  | keyword .conditional => "IfKeyword"

/-- The noun by which a message speaks of a token of this kind. -/
def noun : TokenKind → String
  | error => "error"
  | literal => "literal"
  | bool => "boolean"
  | char => "character"
  | endMarker => "end marker"
  | endOfLine => "end of line"
  | bracketOpen => "opening bracket"
  | bracketClose => "closing bracket"
  | number => "number"
  | space => "whitespace"
  | identifier => "identifier"
  | quote => "quoted literal"
  | string => "string"
  | comment => "comment"
  | keyword .typeName => "type name"
  | keyword .function | keyword .conditional => "keyword"
  | keyword .letBinding | keyword .setBinding => "assignment"

/-- Every kind, by ascending rank. -/
def all : List TokenKind :=
  [error, literal, bool, char, endMarker, endOfLine, bracketOpen, bracketClose, number, space,
   identifier, quote, string, comment, keyword .typeName, keyword .function, keyword .letBinding,
   keyword .setBinding, keyword .conditional]

/-- The kind of a word: reserved, a truth value, or an identifier. -/
def ofWord (word : String) : TokenKind :=
  match Category.ofSpelling? word with
  | some category => keyword category
  | none => if word == "true" || word == "false" then bool else identifier

/-- The kinds above the boundary are the keywords. -/
theorem isKeyword_eq_true_iff {k : TokenKind} :
    k.isKeyword = true ↔ ∃ category, k = keyword category := by
  cases k with
  | keyword category => cases category <;> simp [isKeyword, rank, keywordBoundary]
  | _ => simp [isKeyword, rank, keywordBoundary]

/-- Two kinds of one name are one kind. -/
theorem name_injective {k l : TokenKind} (h : k.name = l.name) : k = l := by
  have hall : ∀ k ∈ all, ∀ l ∈ all, k.name = l.name → k = l := by decide
  have hmem : ∀ k : TokenKind, k ∈ all := by
    intro k
    cases k with
    | keyword category => cases category <;> decide
    | _ => decide
  exact hall k (hmem k) l (hmem l) h

end TokenKind

/-- A pair of brackets. -/
inductive Bracket where
  | paren
  | brace
deriving DecidableEq, Repr, Inhabited

namespace Bracket

/-- The rune that opens a pair. -/
def opening : Bracket → Char
  | paren => '('
  | brace => '{'

/-- The rune that closes a pair. -/
def closing : Bracket → Char
  | paren => ')'
  | brace => '}'

/-- The text of the token that opens a pair. -/
def openText (b : Bracket) : String :=
  String.singleton b.opening

/-- The text of the token that closes a pair. -/
def closeText (b : Bracket) : String :=
  String.singleton b.closing

end Bracket

/-- A classified piece of a source. -/
structure Token where
  kind : TokenKind
  text : String
  span : Span
deriving DecidableEq, Repr, Inhabited

namespace Token

/-- Whether the token opens the pair `b`. -/
def opens (t : Token) (b : Bracket) : Bool :=
  t.kind == .bracketOpen && t.text == b.openText

/-- Whether the token closes the pair `b`. -/
def closes (t : Token) (b : Bracket) : Bool :=
  t.kind == .bracketClose && t.text == b.closeText

/-- Whether the token is the punctuation `text`. -/
def isLiteral (t : Token) (text : String) : Bool :=
  t.kind == .literal && t.text == text

/-- Whether the grammar never looks at the token: white space or a comment. -/
def isIgnorable (t : Token) : Bool :=
  t.kind.isTrivia || t.kind == .comment

theorem kind_of_opens {t : Token} {b : Bracket} (h : t.opens b = true) : t.kind = .bracketOpen := by
  simp only [opens, Bool.and_eq_true, beq_iff_eq] at h
  exact h.1

theorem kind_of_closes {t : Token} {b : Bracket} (h : t.closes b = true) :
    t.kind = .bracketClose := by
  simp only [closes, Bool.and_eq_true, beq_iff_eq] at h
  exact h.1

theorem kind_of_isLiteral {t : Token} {text : String} (h : t.isLiteral text = true) :
    t.kind = .literal := by
  simp only [isLiteral, Bool.and_eq_true, beq_iff_eq] at h
  exact h.1

/-- What opens a pair closes none. -/
theorem closes_eq_false_of_opens {t : Token} {b : Bracket} (h : t.opens b = true) (b' : Bracket) :
    t.closes b' = false := by
  simp [closes, kind_of_opens h]

/-- What closes a pair opens none. -/
theorem opens_eq_false_of_closes {t : Token} {b : Bracket} (h : t.closes b = true) (b' : Bracket) :
    t.opens b' = false := by
  simp [opens, kind_of_closes h]

/-- A token opens brackets of one pair only. -/
theorem opens_eq {t : Token} {b : Bracket} (h : t.opens b = true) (b' : Bracket) :
    t.opens b' = decide (b' = b) := by
  simp only [opens, Bool.and_eq_true, beq_iff_eq] at h
  rw [opens, h.1, h.2]
  cases b <;> cases b' <;> decide

/-- A token closes brackets of one pair only. -/
theorem closes_eq {t : Token} {b : Bracket} (h : t.closes b = true) (b' : Bracket) :
    t.closes b' = decide (b' = b) := by
  simp only [closes, Bool.and_eq_true, beq_iff_eq] at h
  rw [closes, h.1, h.2]
  cases b <;> cases b' <;> decide

/-- The token moved right by `n` bytes. -/
def shift (t : Token) (n : Nat) : Token :=
  { t with span := t.span.shift n }

/-- What stood where something else was wanted, as a message says it. The end of the tokens and an
end marker are both the end of input. -/
def found : Option Token → String
  | none => "end of input"
  | some t =>
    match t.kind with
    | .error => "lexical error: " ++ t.text
    | .endMarker => "end of input"
    | kind => kind.noun ++ " `" ++ t.text ++ "`"

end Token

end DeclFront
