import DeclFront.Proofs.Parse.Grammar
import DeclFront.Proofs.Scan.Separator

/-!
# Writing lexemes down

A printed source is a sequence of words, brackets and commas with separators between them. A
separator is any text whose only tokens are comments. It may be left out, except that two words must
not run together; and after a word it has to begin with white space, for nothing else of what a
separator can begin with may stand there.

`Lexeme.Writes ls text` says that `text` writes down the lexemes `ls` in this manner. The main
result, `Lexeme.Writes.map_key_tokens`, is that a scan of `text` then finds just these lexemes, if
they can be scanned at all (`Lexeme.Scannable`): the words are words, no brace follows a word, and
the brackets of each pair are balanced.
-/

namespace DeclFront

open Scanner

/-- What a printed source is made of, apart from its separators. -/
inductive Lexeme where
  | word (text : String)
  | opening (b : Bracket)
  | closing (b : Bracket)
  | comma
deriving DecidableEq, Repr

/-- What the grammar sees of a token. -/
def Token.key (t : Token) : TokenKind × String :=
  (t.kind, t.text)

namespace Lexeme

/-- How the lexeme is written. -/
def text : Lexeme → String
  | word text => text
  | opening b => b.openText
  | closing b => b.closeText
  | comma => ","

/-- The kind of the token that the lexeme is to be. -/
def kind : Lexeme → TokenKind
  | word text => .ofWord text
  | opening _ => .bracketOpen
  | closing _ => .bracketClose
  | comma => .literal

/-- What the grammar is to see of the lexeme. -/
def key (l : Lexeme) : TokenKind × String :=
  (l.kind, l.text)

/-- Whether the lexeme is a word. -/
def isVerbal : Lexeme → Bool
  | word _ => true
  | _ => false

/-- Whether the lexeme may come after a word. -/
def followsWord : Lexeme → Bool
  | opening .brace | closing .brace => false
  | _ => true

/-- The text `gap` may stand between the lexeme `l` and the next one, if there is a next one. -/
structure Gap (l : Lexeme) (next : Option Lexeme) (gap : String) : Prop where
  /-- The gap leaves no token that is no comment. -/
  separates : ∀ t ∈ lex gap, t.kind = .comment
  /-- After a word, the gap begins with white space, or it is empty and no other word follows. -/
  spaced : l.isVerbal = true →
    gap.toList.head?.any isWhite = true ∨ (gap = "" ∧ next.any isVerbal = false)

/-- The text writes down the lexemes, in their order and with gaps between them. -/
inductive Writes : List Lexeme → String → Prop
  | nil : Writes [] ""
  | cons {l : Lexeme} {ls : List Lexeme} {gap text : String} (hgap : Gap l ls.head? gap)
      (rest : Writes ls text) : Writes (l :: ls) (l.text ++ (gap ++ text))

/-- The lexemes can be scanned from where `depths` brackets of each pair are open, to an end where
none is. -/
def Scannable : (Bracket → Nat) → List Lexeme → Prop
  | depths, [] => depths = fun _ => 0
  | depths, word text :: ls =>
    isWord text.toList = true ∧ ls.head?.all followsWord = true ∧ Scannable depths ls
  | depths, opening b :: ls => Scannable (Function.update depths b (depths b + 1)) ls
  | depths, closing b :: ls =>
    ∃ n, depths b = n + 1 ∧ Scannable (Function.update depths b n) ls
  | depths, comma :: ls => Scannable depths ls

/-- A blank may stand anywhere. -/
theorem gap_blank (l : Lexeme) (next : Option Lexeme) : Gap l next " " :=
  ⟨Separator.iff_lex.1 (.white rfl .nil), fun _ => .inl rfl⟩

/-- Lexemes can always be written down, with a blank after each. -/
theorem exists_writes (ls : List Lexeme) : ∃ text, Writes ls text := by
  induction ls with
  | nil => exact ⟨"", .nil⟩
  | cons l ls ih =>
    obtain ⟨text, hwrites⟩ := ih
    exact ⟨l.text ++ (" " ++ text), .cons (gap_blank l ls.head?) hwrites⟩

/-! ### What stands after a word -/

/-- White space ends a word. -/
theorem ends_of_isWhite {r : Char} (h : isWhite r = true) :
    endsWord r = true ∧ continuesWord r = false := by
  obtain rfl | rfl | rfl | rfl := isWhite_cases h <;> decide

/-- A lexeme that is no word and may come after one begins with a rune that ends a word. -/
theorem ends_of_followsWord {l : Lexeme} (hverbal : l.isVerbal = false)
    (hfollows : l.followsWord = true) {q : Char} (hq : l.text.toList.head? = some q) :
    endsWord q = true ∧ continuesWord q = false := by
  cases l with
  | word text => cases hverbal
  | opening b =>
    cases b with
    | paren =>
      obtain rfl : '(' = q := Option.some.inj hq
      decide
    | brace => cases hfollows
  | closing b =>
    cases b with
    | paren =>
      obtain rfl : ')' = q := Option.some.inj hq
      decide
    | brace => cases hfollows
  | comma =>
    obtain rfl : ',' = q := Option.some.inj hq
    decide

/-- Only a word can be written as nothing. -/
theorem text_ne_nil {l : Lexeme} (hverbal : l.isVerbal = false) : l.text.toList ≠ [] := by
  cases l with
  | word text => cases hverbal
  | opening b => cases b <;> decide
  | closing b => cases b <;> decide
  | comma => decide

/-- What is written after a word may stand there. -/
theorem ends_of_gap {l : Lexeme} {ls : List Lexeme} {gap text : String}
    (hverbal : l.isVerbal = true) (hgap : Gap l ls.head? gap)
    (hfollows : ls.head?.all followsWord = true) (hwrites : Writes ls text) {q : Char}
    (hq : (gap.toList ++ text.toList).head? = some q) :
    endsWord q = true ∧ continuesWord q = false := by
  obtain hwhite | ⟨rfl, hnext⟩ := hgap.spaced hverbal
  · -- the gap begins with white space
    obtain ⟨r, hr, hwhite⟩ := (Option.any_eq_true _ _).1 hwhite
    rw [List.head?_append, hr, Option.some_or, Option.some.injEq] at hq
    exact hq ▸ ends_of_isWhite hwhite
  · -- without a gap the rune belongs to the next lexeme, which is no word
    cases hwrites with
    | nil => cases hq
    | @cons l' ls gap' text hgap' rest =>
      have hverbal' : l'.isVerbal = false := hnext
      obtain ⟨r, runes, hrunes⟩ := List.exists_cons_of_ne_nil (text_ne_nil hverbal')
      rw [String.toList_append, hrunes] at hq
      refine ends_of_followsWord hverbal' hfollows ?_
      rw [hrunes]
      exact hq

/-! ### Scanning what is written -/

theorem openText_toList (b : Bracket) : b.openText.toList = [b.opening] := by
  cases b <;> decide

theorem closeText_toList (b : Bracket) : b.closeText.toList = [b.closing] := by
  cases b <;> decide

/-- A lexeme is scanned as its token, and what follows it can be scanned from there. -/
theorem exists_token {s : Scanner} {before : List Char} {depths : Bracket → Nat} {l : Lexeme}
    {ls : List Lexeme} {gap text : String} (hscannable : Scannable depths (l :: ls))
    (hgap : Gap l ls.head? gap) (hwrites : Writes ls text)
    (h : s.Stands before (l.text.toList ++ (gap.toList ++ text.toList)) depths) :
    ∃ (t : Token) (s' : Scanner) (depths' : Bracket → Nat), t.key = l.key ∧
      s'.Stands (before ++ l.text.toList) (gap.toList ++ text.toList) depths' ∧
      Scannable depths' ls ∧ s.run.tokens = t :: s'.run.tokens := by
  cases l with
  | word w =>
    obtain ⟨hword, hfollows, hscannable⟩ := hscannable
    -- a word is scanned whole if what stands behind it may end it
    obtain ⟨s', hs', htokens⟩ :=
      h.word hword fun q hq => ends_of_gap rfl hgap hfollows hwrites hq
    refine ⟨_, s', depths, ?_, hs', hscannable, htokens⟩
    show (TokenKind.ofWord (String.ofList w.toList), String.ofList w.toList) =
      (TokenKind.ofWord w, w)
    rw [String.ofList_toList]
  | opening b =>
    have htext : (opening b).text.toList = [b.opening] := openText_toList b
    rw [htext] at h ⊢
    obtain ⟨s', hs', htokens⟩ := h.opening b
    exact ⟨_, s', _, rfl, hs', hscannable, htokens⟩
  | closing b =>
    have htext : (closing b).text.toList = [b.closing] := closeText_toList b
    rw [htext] at h ⊢
    obtain ⟨n, hopen, hscannable⟩ := hscannable
    obtain ⟨s', hs', htokens⟩ := h.closing b hopen
    exact ⟨_, s', _, rfl, hs', hscannable, htokens⟩
  | comma =>
    obtain ⟨s', hs', htokens⟩ := h.comma
    exact ⟨_, s', depths, rfl, hs', hscannable, htokens⟩

/-- No lexeme is taken for white space or a comment. -/
theorem isIgnorable_of_key {t : Token} {l : Lexeme} (h : t.key = l.key) :
    t.isIgnorable = false := by
  have hkind : t.kind = l.kind := congrArg Prod.fst h
  rw [Token.isIgnorable, hkind]
  cases l with
  | word text =>
    -- a keyword, a truth value or an identifier
    rw [kind, TokenKind.ofWord]
    split
    · rfl
    · split_ifs <;> rfl
  | _ => rfl

theorem significant_of_comments {ts : List Token} (h : ∀ t ∈ ts, t.kind = .comment) :
    significant ts = [] := by
  rw [significant, List.filter_eq_nil_iff]
  intro t ht
  rw [Token.isIgnorable, h t ht]
  decide

/-- **A scan finds the lexemes that were written**, and nothing else but comments. -/
theorem Writes.map_key_tokens {s : Scanner} {before : List Char} {depths : Bracket → Nat}
    {ls : List Lexeme} {text : String} (hwrites : Writes ls text)
    (hscannable : Scannable depths ls) (h : s.Stands before text.toList depths) :
    (significant s.run.tokens).map Token.key = ls.map key := by
  -- a lexeme, then its gap: the scanner stands in front of the rest as it stood in front of all
  induction hwrites generalizing s before depths with
  | nil =>
    -- every bracket is closed, so the scan has nothing to complain of at the end
    obtain rfl : depths = fun _ => 0 := hscannable
    rw [h.tokens_eq_nil]
    rfl
  | @cons l ls gap text hgap rest ih =>
    rw [String.toList_append, String.toList_append] at h
    obtain ⟨t, s', depths', hkey, hs', hscannable', htokens⟩ := exists_token hscannable hgap rest h
    -- the gap leaves comments at most, and these do not matter
    obtain ⟨ts, s'', hts, hs'', htokens'⟩ :=
      (Separator.iff_lex.2 hgap.separates).exists_tokens hs'
    rw [htokens, htokens', significant_cons (isIgnorable_of_key hkey), significant_append,
      significant_of_comments hts, List.nil_append, List.map_cons, List.map_cons, hkey,
      ih hscannable' hs'']

end Lexeme

end DeclFront
