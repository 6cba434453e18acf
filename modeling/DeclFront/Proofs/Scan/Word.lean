import DeclFront.Proofs.Scan.Concatenation
import DeclFront.Proofs.Scan.Spelling

/-!
# Words as tokens

A word is read as far as it goes, and only then is it asked what comes next. Some runes may stand
there and leave the word a token of its own (`wordEnds`). Every other rune is an error, also one
that would be a token by itself: `a+b` is no sum, and a string has to be kept apart from the word
before it. The point is neither, for it is read with the word.

What a word is taken for depends on its spelling alone, and the table of reserved words is looked up
exactly (`TokenKind.ofWord_eq_keyword_iff`). Two of its categories have spellings that are no words,
so no token has them.
-/

namespace DeclFront

/-- The runes that may stand directly after a word, and are not read with it. -/
def wordEnds : List Char :=
  [' ', '\t', '\r', '\n', ',', '|', ':', ')', '(']

variable {r : Char}

/-- These runes may stand after a word, and do not continue it. -/
theorem endsWord_of_mem_wordEnds (h : r ∈ wordEnds) :
    endsWord r = true ∧ continuesWord r = false := by
  have hall : wordEnds.all (fun r => endsWord r && !continuesWord r) = true := by decide
  have hr := List.all_eq_true.1 hall r h
  rwa [Bool.and_eq_true, Bool.not_eq_true'] at hr

/-- Of the other runes only the point may stand there. -/
theorem mem_wordEnds_of_endsWord (h : endsWord r = true) (hpoint : r ≠ '.') : r ∈ wordEnds := by
  simp only [endsWord, isBlank, isLineEnd, Bool.or_eq_true, beq_iff_eq, List.contains_iff_mem,
    List.mem_cons, List.not_mem_nil, or_false] at h
  simp only [wordEnds, List.mem_cons, List.not_mem_nil, or_false]
  grind

/-! ### Reserved words -/

/-- No spelling is listed twice. -/
theorem Category.ofSpelling?_of_mem_spellings {word : String} {category : Category}
    (h : word ∈ category.spellings) : ofSpelling? word = some category := by
  obtain ⟨row, hrow, rfl⟩ := List.mem_map.1 h
  obtain ⟨hmem, hcategory⟩ := List.mem_filter.1 hrow
  -- each row of the table is found by its own spelling
  have hall : ∀ row ∈ vocabulary, ofSpelling? row.spelling = some row.category := by decide
  rw [hall row hmem, beq_iff_eq.1 hcategory]

/-- **A word is a keyword exactly if it is listed as one.** -/
theorem TokenKind.ofWord_eq_keyword_iff {word : String} {category : Category} :
    ofWord word = .keyword category ↔ word ∈ category.spellings := by
  refine ⟨fun h => Category.mem_spellings_of_ofSpelling? ?_, fun h => ?_⟩
  · unfold ofWord at h
    cases hfound : Category.ofSpelling? word with
    | some found =>
      rw [hfound] at h
      rw [TokenKind.keyword.inj h]
    | none =>
      rw [hfound] at h
      dsimp only at h
      split_ifs at h
  · rw [ofWord, Category.ofSpelling?_of_mem_spellings h]

/-- The spellings of the two kinds of assignment are no words. -/
theorem not_isWord_of_mem_spellings {word : String} {category : Category}
    (hword : word ∈ category.spellings)
    (h : category = .letBinding ∨ category = .setBinding) : isWord word.toList = false := by
  have hall : ∀ category ∈ [Category.letBinding, .setBinding], ∀ word ∈ category.spellings,
      isWord word.toList = false := by decide
  refine hall category ?_ word hword
  rwa [List.mem_pair]

namespace Scanner

/-! ### Scanning a word -/

/-- **A rune that may not stand after a word** ends the scan. -/
theorem Stands.badWord {s : Scanner} {before word ahead : List Char} {depths : Bracket → Nat}
    (h : s.Stands before (word ++ r :: ahead) depths) (hword : isWord word = true)
    (hends : endsWord r = false) (hcontinues : continuesWord r = false) :
    s.run.tokens = [⟨.error, "unexpected character " ++ nameRune r,
      ⟨byteLength before + byteLength word,
        byteLength before + byteLength word + r.utf8Size⟩⟩] := by
  have hnext : ∀ q, (r :: ahead).head? = some q → continuesWord q = false := by
    intro q hq
    obtain rfl : r = q := Option.some.inj hq
    exact hcontinues
  -- the word is read whole before the rune is asked for
  obtain ⟨hgoto, hskip⟩ := h.goto_word hword hnext
  have hstep := scanWord_of_stop (s := s.moveTo s.cursor.settle) hskip.head?_eq hends
  rw [tokens_run_of_goto_of_fail hgoto hstep, cursor_moveTo, hskip.offset_eq]

/-- A word is a token of its own, and the rest is scanned by itself. -/
theorem lex_append_of_wordEnds {word more : String} (hword : isWord word.toList = true)
    (hmore : ∀ r, more.toList.head? = some r → r ∈ wordEnds) :
    lex (word ++ more) = ⟨.ofWord word, word, ⟨0, word.utf8ByteSize⟩⟩ ::
      (lex more).map (·.shift word.utf8ByteSize) := by
  have hstart := stands_ofSource (word ++ more)
  rw [String.toList_append] at hstart
  obtain ⟨s, hs, htokens⟩ :=
    hstart.word hword fun q hq => endsWord_of_mem_wordEnds (hmore q hq)
  rw [String.ofList_toList, ofPiece_nil] at htokens
  rw [lex_eq_cons hs htokens, List.nil_append, utf8ByteSize_eq_byteLength]

/-- Any other rune behind a word is an error about that rune. -/
theorem lex_append_of_not_wordEnds {word more : String} (hword : isWord word.toList = true)
    (hends : r ∉ wordEnds) (hr : isWordRune r = false) (hpoint : r ≠ '.') :
    lex (word ++ String.singleton r ++ more) =
      [⟨.error, "unexpected character " ++ nameRune r,
        ⟨word.utf8ByteSize, word.utf8ByteSize + r.utf8Size⟩⟩] := by
  -- of the runes that may follow a word only the point is read with it
  have hstop : endsWord r = false := by
    rw [← Bool.not_eq_true]
    exact fun h => hends (mem_wordEnds_of_endsWord h hpoint)
  have hcontinues : continuesWord r = false := by
    rw [continuesWord, hr, Bool.false_or, beq_eq_false_iff_ne]
    exact hpoint
  have hstart := stands_ofSource (word ++ String.singleton r ++ more)
  rw [String.toList_append, String.toList_append, String.toList_singleton, List.append_assoc,
    List.singleton_append] at hstart
  have htokens := hstart.badWord hword hstop hcontinues
  rw [byteLength_nil, Nat.zero_add, ← utf8ByteSize_eq_byteLength] at htokens
  exact htokens

/-- No token is an assignment. -/
theorem kind_ne_of_mem_lexWith {options : ScanOptions} {source : String} {t : Token}
    {category : Category} (ht : t ∈ lexWith options source)
    (h : category = .letBinding ∨ category = .setBinding) : t.kind ≠ .keyword category := by
  intro hkind
  have hverbal : t.kind.isVerbal = true := by
    rw [hkind]
    rfl
  obtain ⟨hword, hspelled⟩ := Token.spelled_of_mem_lexWith options source t ht hverbal
  -- its text is listed as an assignment, and so it is no word
  have hmem := TokenKind.ofWord_eq_keyword_iff.1 (hspelled.symm.trans hkind)
  rw [not_isWord_of_mem_spellings hmem h] at hword
  cases hword

/-- **Words are scanned exactly.** A word before a rune that may stand there is a token, of the kind
that its spelling has, and the rest is scanned by itself; any other rune behind it is an error about
that rune. Every token of a kind that words have is a word of that kind. Keywords are the spellings
that are listed, and no token is an assignment. -/
theorem lex_word :
    (∀ word more : String, isWord word.toList = true →
      (∀ r, more.toList.head? = some r → r ∈ wordEnds) →
      lex (word ++ more) = ⟨.ofWord word, word, ⟨0, word.utf8ByteSize⟩⟩ ::
        (lex more).map (·.shift word.utf8ByteSize)) ∧
    (∀ (word more : String) (r : Char), isWord word.toList = true → r ∉ wordEnds →
      isWordRune r = false → r ≠ '.' →
      lex (word ++ String.singleton r ++ more) =
        [⟨.error, "unexpected character " ++ nameRune r,
          ⟨word.utf8ByteSize, word.utf8ByteSize + r.utf8Size⟩⟩]) ∧
    (∀ (options : ScanOptions) (source : String), ∀ t ∈ lexWith options source,
      t.kind ∈ [.identifier, .bool, .keyword .typeName, .keyword .function,
        .keyword .conditional] →
      isWord t.text.toList = true ∧ t.kind = .ofWord t.text) ∧
    (∀ (word : String) (category : Category),
      TokenKind.ofWord word = .keyword category ↔ word ∈ category.spellings) ∧
    ∀ (options : ScanOptions) (source : String), ∀ t ∈ lexWith options source,
      t.kind ≠ .keyword .letBinding ∧ t.kind ≠ .keyword .setBinding := by
  refine ⟨fun _ _ => lex_append_of_wordEnds, fun _ _ _ => lex_append_of_not_wordEnds,
    fun options source t ht hkind => ?_, fun _ _ => TokenKind.ofWord_eq_keyword_iff,
    fun options source t ht => ?_⟩
  · have hverbal : ∀ kind ∈ [TokenKind.identifier, .bool, .keyword .typeName, .keyword .function,
        .keyword .conditional], kind.isVerbal = true := by decide
    exact Token.spelled_of_mem_lexWith options source t ht (hverbal _ hkind)
  · exact ⟨kind_ne_of_mem_lexWith ht (.inl rfl), kind_ne_of_mem_lexWith ht (.inr rfl)⟩

/-- A word with a point in it before a bracket, and a word before a quote that may not stand there.
-/
theorem lex_word_of_two_neighbours :
    lex ("if.é" ++ "|") = [⟨.identifier, "if.é", ⟨0, 5⟩⟩, ⟨.literal, "|", ⟨5, 6⟩⟩] ∧
      lex ("func" ++ String.singleton '"' ++ "\"") =
        [⟨.error, "unexpected character U+0022 '\"'", ⟨4, 5⟩⟩] ∧
      isWord "if".toList = true := by
  obtain ⟨hends, herror, hspelled, -, -⟩ := lex_word
  have hlex : ⟨.keyword .conditional, "if", ⟨1, 3⟩⟩ ∈ lexWith ⟨false⟩ "\nif" := by decide +kernel
  refine ⟨?_, ?_, (hspelled _ _ _ hlex (by decide)).1⟩
  · refine (hends "if.é" "|" (by decide +kernel) ?_).trans (by decide +kernel)
    intro r hr
    obtain rfl : '|' = r := Option.some.inj hr
    decide
  · exact (herror "func" "\"" '"' (by decide) (by decide) (by decide) (by decide)).trans
      (by decide +kernel)

end Scanner

end DeclFront
