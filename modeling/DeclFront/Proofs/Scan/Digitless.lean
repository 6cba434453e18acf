import DeclFront.Proofs.Scan.Numeral

/-!
# Numbers without a digit

Behind a sign every part of a number may be empty: its digits, its fraction, its exponent and its
unit. What makes a sign begin a number is the rune after it, a point or any word rune, and a word
rune later on that does not fit makes the whole of it an error. Where none comes, nothing asks
whether there was a digit at all. So a sign with the letter of an exponent is a number by itself,
and a word behind a sign loses its first letters to it.

`Digitless` is the language of these numbers. They are all the exceptions: any other number has a
decimal digit, and a word directly behind a sign is an error at its first rune unless that is `e`,
`E` or `i` (`Scanner.has_digit_iff`).
-/

namespace DeclFront

/-- What may follow the sign of a number that has no digit: a point, the letter of an exponent with
a sign or without one, and an imaginary unit, in this order. Each may be missing. -/
def digitless : RegularExpression Char :=
  maybe (oneOf ['.']) *
    (maybe (oneOf ['e', 'E'] * maybe (oneOf ['+', '-'])) * maybe (oneOf ['i']))

/-- The runes are a sign and something of this after it. -/
def Digitless (runes : List Char) : Prop :=
  ∃ sign ∈ ['+', '-'], ∃ body ∈ digitless.matches', body ≠ [] ∧ runes = sign :: body

/-! ### Words without a digit -/

/-- The words of a language that have no decimal digit. -/
def bare (l : Language Char) : Language Char :=
  {w | w ∈ l ∧ ∀ r ∈ w, r ∉ Radix.decimal.digits}

variable {l m : Language Char} {runes w : List Char} {sign r : Char}

theorem mem_bare : w ∈ bare l ↔ w ∈ l ∧ ∀ r ∈ w, r ∉ Radix.decimal.digits := Iff.rfl

/-- The empty word has no digit. -/
theorem bare_one : bare 1 = 1 := by
  ext w
  rw [mem_bare, Language.mem_one]
  refine ⟨And.left, ?_⟩
  rintro rfl
  exact ⟨rfl, List.forall_mem_nil _⟩

/-- Of a choice, the words without a digit are those of either side. -/
theorem bare_add : bare (l + m) = bare l + bare m := by
  ext w
  rw [Language.mem_add, mem_bare, mem_bare, mem_bare, Language.mem_add, or_and_right]

/-- A word put together has no digit if neither of its parts has one. -/
theorem bare_mul : bare (l * m) = bare l * bare m := by
  ext w
  rw [mem_bare, Language.mem_mul, Language.mem_mul]
  constructor
  · rintro ⟨⟨u, hu, v, hv, rfl⟩, hnone⟩
    obtain ⟨hnoneu, hnonev⟩ := List.forall_mem_append.1 hnone
    exact ⟨u, ⟨hu, hnoneu⟩, v, ⟨hv, hnonev⟩, rfl⟩
  · rintro ⟨u, ⟨hu, hnoneu⟩, v, ⟨hv, hnonev⟩, rfl⟩
    exact ⟨⟨u, hu, v, hv, rfl⟩, List.forall_mem_append.2 ⟨hnoneu, hnonev⟩⟩

/-- A run of digits has no digit if it is empty. -/
theorem bare_digits : bare (oneOf Radix.decimal.digits).star.matches' = 1 := by
  ext w
  rw [mem_bare, mem_star_oneOf, Language.mem_one]
  constructor
  · rintro ⟨hdigits, hnone⟩
    exact List.eq_nil_iff_forall_not_mem.2 fun r hr => hnone r hr (hdigits r hr)
  · rintro rfl
    exact ⟨List.forall_mem_nil _, List.forall_mem_nil _⟩

/-- A single rune that is no digit stays as it is. -/
theorem bare_oneOf (runes : List Char) (h : disjoint runes Radix.decimal.digits = true) :
    bare (oneOf runes).matches' = (oneOf runes).matches' := by
  ext w
  rw [mem_bare, mem_oneOf]
  refine ⟨And.left, ?_⟩
  rintro ⟨r, hr, rfl⟩
  exact ⟨⟨r, hr, rfl⟩, List.forall_mem_singleton.2 (notMem_of_disjoint h hr)⟩

/-- What may be missing may be missing here, too. -/
theorem bare_maybe (e : RegularExpression Char) :
    bare (maybe e).matches' = 1 + bare e.matches' := by
  show bare (1 + e.matches') = _
  rw [bare_add, bare_one]

/-- **A decimal number without a digit** is made of the pieces that may do without one. -/
theorem bare_tail : bare Radix.decimal.tail.matches' = digitless.matches' := by
  -- none of the marks is a digit, so only the two runs of digits go
  have hpoint := bare_oneOf ['.'] (by decide)
  have hletter := bare_oneOf ['e', 'E'] (by decide)
  have hscale := bare_oneOf ['+', '-'] (by decide)
  have hunit := bare_oneOf ['i'] (by decide)
  have hmantissa : bare Radix.decimal.mantissa.matches' = (maybe (oneOf ['.'])).matches' :=
    calc bare Radix.decimal.mantissa.matches'
        = 1 * (1 + (oneOf ['.']).matches' * 1) := by
          rw [Radix.mantissa, RegularExpression.matches'_mul, bare_mul, bare_digits, bare_maybe,
            RegularExpression.matches'_mul, bare_mul, bare_digits, hpoint]
      _ = 1 + (oneOf ['.']).matches' := by rw [one_mul, mul_one]
  have hexponent : bare Radix.exponent.matches' =
      (oneOf ['e', 'E'] * maybe (oneOf ['+', '-'])).matches' :=
    calc bare Radix.exponent.matches'
        = (oneOf ['e', 'E']).matches' * ((1 + (oneOf ['+', '-']).matches') * 1) := by
          rw [Radix.exponent, RegularExpression.matches'_mul, bare_mul,
            RegularExpression.matches'_mul, bare_mul, bare_digits, bare_maybe, hletter, hscale]
      _ = (oneOf ['e', 'E']).matches' * (1 + (oneOf ['+', '-']).matches') := by rw [mul_one]
  rw [Radix.tail_of_ne (by decide), RegularExpression.matches'_mul, bare_mul,
    RegularExpression.matches'_mul, bare_mul, bare_maybe, bare_maybe, hmantissa, hexponent, hunit]
  rfl

/-! ### Numerals without a digit -/

/-- A sign is no digit. -/
theorem notMem_digits_of_sign (h : sign ∈ ['+', '-']) : sign ∉ Radix.decimal.digits := by
  have hdisjoint : disjoint ['+', '-'] Radix.decimal.digits = true := by decide
  exact notMem_of_disjoint hdisjoint h

/-- The texts without a digit are numerals, and no others of them are. -/
theorem digitless_iff :
    Digitless runes ↔ IsNumeral runes ∧ ∀ r ∈ runes, r ∉ Radix.decimal.digits := by
  constructor
  · rintro ⟨sign, hsign, body, hbody, hne, rfl⟩
    rw [← bare_tail, mem_bare] at hbody
    have hsigned : [sign] ∈ [[], ['+'], ['-']] := by simpa using hsign
    have hmagnitude := mem_magnitude.2 (.inl hbody.1)
    refine ⟨⟨[sign], body, rfl, hsigned, hmagnitude, hne, nofun⟩, ?_⟩
    exact List.forall_mem_cons.2 ⟨notMem_digits_of_sign hsign, hbody.2⟩
  · rintro ⟨⟨sign, body, rfl, hnumeral⟩, hnone⟩
    -- behind the sign only a decimal number can be without a digit
    have hbody : body ∈ digitless.matches' := by
      have hnone := (List.forall_mem_append.1 hnone).2
      rw [← bare_tail, mem_bare]
      obtain hdecimal | ⟨_, r, _, v, _, rfl⟩ := mem_magnitude.1 hnumeral.body_mem
      · exact ⟨hdecimal, hnone⟩
      · -- the zero before a marker is a digit
        have hzero : '0' ∈ Radix.decimal.digits := by decide
        exact absurd hzero (hnone '0' List.mem_cons_self)
    have hsign := hnumeral.sign_mem
    simp only [List.mem_cons, List.not_mem_nil, or_false] at hsign
    obtain rfl | rfl | rfl := hsign
    · -- without a sign it begins with a digit
      obtain ⟨r, hr, hhead⟩ := hnumeral.digit_first rfl
      exact absurd hr (hnone r (List.mem_of_mem_head? hhead))
    · exact ⟨'+', by decide, body, hbody, hnumeral.body_ne_nil, rfl⟩
    · exact ⟨'-', by decide, body, hbody, hnumeral.body_ne_nil, rfl⟩

/-- A sign and a word rune that is no digit are a numeral for three letters only. -/
theorem isNumeral_sign_iff (hsign : sign ∈ ['+', '-']) (hr : isWordRune r = true)
    (hdigit : r ∉ Radix.decimal.digits) : IsNumeral [sign, r] ↔ r ∈ ['e', 'E', 'i'] := by
  constructor
  · intro hnumeral
    have hnone : ∀ q ∈ [sign, r], q ∉ Radix.decimal.digits :=
      List.forall_mem_cons.2 ⟨notMem_digits_of_sign hsign, List.forall_mem_singleton.2 hdigit⟩
    obtain ⟨q, _, body, hbody, _, hsplit⟩ := digitless_iff.2 ⟨hnumeral, hnone⟩
    obtain ⟨rfl, rfl⟩ := List.cons.inj hsplit
    -- the other letters of the expression are marks
    have hall : (letters digitless).all (fun q => !isWordRune q || ['e', 'E', 'i'].contains q) =
        true := by decide +kernel
    have hletter := List.all_eq_true.1 hall r (mem_letters hbody List.mem_cons_self)
    rwa [hr, Bool.not_true, Bool.false_or, List.contains_iff_mem] at hletter
  · intro hletter
    have hall : ['e', 'E', 'i'].all (fun q => digitless.rmatch [q]) = true := by decide
    have hbody : [r] ∈ digitless.matches' := by
      rw [← RegularExpression.rmatch_iff_matches']
      exact List.all_eq_true.1 hall r hletter
    exact (digitless_iff.1 ⟨sign, hsign, [r], hbody, List.cons_ne_nil r [], rfl⟩).1

namespace Scanner

/-! ### Their tokens -/

/-- A source that is a numeral is a single token. -/
theorem lex_of_isNumeral {source : String} (h : IsNumeral source.toList) :
    lex source = [⟨.number, source, ⟨0, source.utf8ByteSize⟩⟩] := by
  have halone : lex (source ++ "") = _ := lex_append_of_isNumeral h nofun
  rwa [String.append_empty] at halone

/-- A sign before a word rune is an error, unless a numeral begins there. -/
theorem lex_sign_append (hsign : sign ∈ ['+', '-']) (hr : isWordRune r = true)
    (hnot : ¬ IsNumeral [sign, r]) (more : String) :
    lex (String.ofList [sign, r] ++ more) =
      [⟨.error, "bad number syntax: " ++ quoteText (String.ofList [sign, r]),
        ⟨0, 1 + r.utf8Size⟩⟩] := by
  -- the two signs differ only in the text of the error
  simp only [List.mem_cons, List.not_mem_nil, or_false] at hsign
  have htext : ∀ q : Char, String.ofList [q, r] = String.singleton q ++ String.singleton r :=
    fun q => String.ofList_cons
  obtain rfl | rfl := hsign
  · rw [htext]
    exact lex_append_of_not_isNumeral (.inr (.inl rfl)) hr hnot
  · rw [htext]
    exact lex_append_of_not_isNumeral (.inr (.inr rfl)) hr hnot

/-- **Which numbers have a digit.** A number that is found in a source has a decimal digit unless it
is digitless, whether white space is kept or not; and what is digitless is a number, the only token
but for white space. A sign before a word rune that is no digit makes an error of both, whatever
comes after them, if and only if that rune is not one of `e`, `E` and `i`. -/
theorem has_digit_iff (options : ScanOptions) (source : String) (sign r : Char) :
    (∀ t ∈ lexWith options source, t.kind = .number →
      ((∃ q ∈ t.text.toList, q ∈ Radix.decimal.digits) ↔ ¬ Digitless t.text.toList)) ∧
    (Digitless source.toList → (lexWith options source).filter (!·.kind.isTrivia) =
      [⟨.number, source, ⟨0, source.utf8ByteSize⟩⟩]) ∧
    (sign ∈ ['+', '-'] → isWordRune r = true → r ∉ Radix.decimal.digits →
      ((∀ more : String,
        (lexWith options (String.ofList [sign, r] ++ more)).filter (!·.kind.isTrivia) =
          [⟨.error, "bad number syntax: " ++ quoteText (String.ofList [sign, r]),
            ⟨0, 1 + r.utf8Size⟩⟩]) ↔
        r ∉ ['e', 'E', 'i'])) := by
  refine ⟨fun t ht hkind => ?_, fun hdigitless => ?_, fun hsign hr hdigit => ?_⟩
  · have hnumeral := isNumeral_of_mem_lexWith ht hkind
    rw [digitless_iff]
    constructor
    · rintro ⟨q, hq, hdigit⟩ ⟨-, hnone⟩
      exact hnone q hq hdigit
    · intro hnot
      by_contra hnone
      exact hnot ⟨hnumeral, fun q hq hdigit => hnone ⟨q, hq, hdigit⟩⟩
  · rw [← lex_eq_filter]
    exact lex_of_isNumeral (digitless_iff.1 hdigitless).1
  · -- white space apart it is the scan without it
    simp only [← lex_eq_filter]
    rw [← isNumeral_sign_iff hsign hr hdigit]
    constructor
    · intro herror hnumeral
      -- with nothing after them they would be an error and a number
      have halone := herror ""
      rw [String.append_empty, lex_of_isNumeral (by rwa [String.toList_ofList])] at halone
      injection halone with htoken
      injection htoken with hkind
      cases hkind
    · intro hnot more
      exact lex_sign_append hsign hr hnot more

/-- A word of one letter that its sign takes for a number. -/
theorem lex_sign_letter :
    lex "-e" = [⟨.number, "-e", ⟨0, 2⟩⟩] ∧ ∀ r ∈ "-e".toList, r ∉ Radix.decimal.digits := by
  have hdisjoint : disjoint "-e".toList Radix.decimal.digits = true := by decide
  exact ⟨by decide +kernel, fun _ => notMem_of_disjoint hdisjoint⟩

end Scanner

end DeclFront
