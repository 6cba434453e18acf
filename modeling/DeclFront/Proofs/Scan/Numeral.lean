import DeclFront.Proofs.Scan.Concatenation
import DeclFront.Proofs.Scan.Form
import DeclFront.Proofs.Text.Munch

/-!
# Numerals

The number state is a chain of greedy pieces: a leading zero, a marker, digits whose sort depends on
the marker, a point and more digits, an exponent, an imaginary unit. Here is the language that it
reads, as a regular expression for each notation (`Radix.tail`, `magnitude`), and the proof that it
reads just this language: none of the pieces can take a rune that a later one would need.

The one place where the letters of two pieces overlap is the hexadecimal notation, where `e` is a
digit. There the state looks for an exponent nevertheless, but a mantissa never leaves an `e` behind
(`Cursor.munches_readMantissa_readExponent`), so nothing is lost by saying that there is none.

* `Cursor.munches_readMagnitude`: what is read after a sign is the longest word of `magnitude`;
* `IsNumeral`: the whole language, with its signs;
* `Scanner.lex_numeral`: a numeral alone is one token, and nothing else is; a numeral before
  something that cannot go on with it is one token too; a word rune directly after it spoils it.
-/

namespace DeclFront

namespace Radix

/-! ### Notations -/

/-- The digits of a notation. -/
def digits : Radix → List Char
  | decimal => ['0', '1', '2', '3', '4', '5', '6', '7', '8', '9']
  | hexadecimal =>
    ['0', '1', '2', '3', '4', '5', '6', '7', '8', '9', 'a', 'b', 'c', 'd', 'e', 'f',
      'A', 'B', 'C', 'D', 'E', 'F']
  | octal => ['0', '1', '2', '3', '4', '5', '6', '7', '_']
  | binary => ['0', '1', '_']

/-- The runes that announce a notation after a leading zero. Decimal digits need none. -/
def markers : Radix → List Char
  | decimal => []
  | hexadecimal => ['x', 'X']
  | octal => ['o', 'O']
  | binary => ['b', 'B']

/-- Digits, and a point with more of them or none. -/
def mantissa (radix : Radix) : RegularExpression Char :=
  (oneOf radix.digits).star * maybe (oneOf ['.'] * (oneOf radix.digits).star)

/-- The letter of an exponent, a sign or none, and decimal digits. -/
def exponent : RegularExpression Char :=
  oneOf ['e', 'E'] * (maybe (oneOf ['+', '-']) * (oneOf decimal.digits).star)

/-- What may follow the marker of a notation. Hexadecimal numbers have no exponent. -/
def tail : Radix → RegularExpression Char
  | hexadecimal => mantissa hexadecimal * maybe (oneOf ['i'])
  | radix => mantissa radix * (maybe exponent * maybe (oneOf ['i']))

variable {radix : Radix} {r : Char} {w : List Char}

/-- Any notation but the hexadecimal one may have an exponent. -/
theorem tail_of_ne (h : radix ≠ .hexadecimal) :
    radix.tail = radix.mantissa * (maybe exponent * maybe (oneOf ['i'])) := by
  rw [tail]
  exact h

/-- All digits are ASCII. -/
theorem toNat_lt_of_isDigit (h : radix.isDigit r = true) : r.toNat < 0x80 := by
  -- no digit is beyond the last hexadecimal one
  have hle : r ≤ 'f' := by
    cases radix with
    | decimal =>
      simp only [isDigit, isDecimal, Bool.and_eq_true, decide_eq_true_eq] at h
      exact Char.le_trans h.2 (by decide)
    | hexadecimal =>
      simp only [isDigit, isDecimal, Bool.or_eq_true, Bool.and_eq_true, decide_eq_true_eq] at h
      obtain (h | h) | h := h <;> exact Char.le_trans h.2 (by decide)
    | octal =>
      simp only [isDigit, Bool.or_eq_true, Bool.and_eq_true, decide_eq_true_eq, beq_iff_eq] at h
      obtain h | rfl := h
      · exact Char.le_trans h.2 (by decide)
      · decide
    | binary =>
      simp only [isDigit, Bool.or_eq_true, beq_iff_eq] at h
      obtain (rfl | rfl) | rfl := h <;> decide
  have hnat : r.toNat ≤ 'f'.toNat := hle
  exact Nat.lt_of_le_of_lt hnat (by decide)

/-- The test for digits and the list of them agree. -/
theorem isDigit_iff (radix : Radix) (r : Char) : radix.isDigit r = true ↔ r ∈ radix.digits := by
  -- all digits are ASCII, and there the two are compared rune by rune
  have hall : ∀ n < 0x80, radix.isDigit (.ofNat n) = true ↔ .ofNat n ∈ radix.digits := by
    cases radix <;> decide +kernel
  have hdigits : radix.digits.all (·.toNat < 0x80) = true := by
    cases radix <;> decide
  refine ⟨fun hr => ?_, fun hr => ?_⟩
  · rw [← Char.ofNat_toNat r] at hr ⊢
    rw [← hall _ (toNat_lt_of_isDigit (Char.ofNat_toNat r ▸ hr))]
    exact hr
  · have hascii := of_decide_eq_true (List.all_eq_true.1 hdigits r hr)
    rw [← Char.ofNat_toNat r, hall _ hascii, Char.ofNat_toNat]
    exact hr

/-- A notation is known by its markers. -/
theorem ofMarker?_eq_some_iff : ofMarker? r = some radix ↔ r ∈ radix.markers := by
  unfold ofMarker?
  cases radix <;> simp [markers] <;> grind

/-- Another digit at the end of a mantissa. -/
theorem mem_mantissa_concat (hw : w ∈ radix.mantissa.matches') (hr : r ∈ radix.digits) :
    w ++ [r] ∈ radix.mantissa.matches' := by
  obtain ⟨whole, hwhole, fraction, hfraction, rfl⟩ := Language.mem_mul.1 hw
  have hconcat : ∀ {run : List Char}, run ∈ (oneOf radix.digits).star.matches' →
      run ++ [r] ∈ (oneOf radix.digits).star.matches' := by
    intro run hrun
    rw [mem_star_oneOf] at hrun ⊢
    intro q hq
    obtain hq | hq := List.mem_append.1 hq
    · exact hrun q hq
    · rwa [List.mem_singleton.1 hq]
  cases fraction with
  -- without a point the digit goes to the run before it, else to the one behind
  | nil => exact Language.mem_mul.2 ⟨whole ++ [r], hconcat hwhole, [], nil_mem_maybe, by simp⟩
  | cons point fraction =>
    have hpoint := (mem_maybe.1 hfraction).resolve_left (List.cons_ne_nil _ _)
    obtain ⟨hmark, hrun⟩ := cons_mem_oneOf_mul.1 hpoint
    refine Language.mem_mul.2 ⟨whole, hwhole, point :: (fraction ++ [r]), ?_, by simp⟩
    exact mem_maybe.2 (.inr (cons_mem_oneOf_mul.2 ⟨hmark, hconcat hrun⟩))

/-- A beginning of what may follow a marker may follow it, too. -/
theorem prefixClosed_tail (radix : Radix) : PrefixClosed radix.tail := by
  -- every part of it may break off anywhere
  have hstar := fun radix : Radix => prefixClosed_star radix.digits
  have hmantissa : PrefixClosed radix.mantissa :=
    (hstar radix).mul ((hstar radix).maybe_oneOf_mul _)
  have hsign : PrefixClosed (maybe (oneOf ['+', '-'])) := prefixClosed_maybe_oneOf _
  have hexponent : PrefixClosed (maybe exponent) := (hsign.mul (hstar .decimal)).maybe_oneOf_mul _
  have hunit : PrefixClosed (maybe (oneOf ['i'])) := prefixClosed_maybe_oneOf _
  by_cases hradix : radix = .hexadecimal
  · subst hradix
    exact hmantissa.mul hunit
  · rw [tail_of_ne hradix]
    exact hmantissa.mul (hexponent.mul hunit)

end Radix

/-- What may follow the sign of a number: a zero and a marker with what the notation allows, or
decimal digits with all that may come after them. -/
def magnitude : RegularExpression Char :=
  Radix.tail .decimal + (marked .hexadecimal + (marked .octal + marked .binary))
where
  /-- A zero, a marker of the notation, and the rest. -/
  marked (radix : Radix) : RegularExpression Char :=
    oneOf ['0'] * (oneOf radix.markers * radix.tail)

variable {w ahead : List Char} {r : Char}

/-- A leading zero is a decimal digit like any other. -/
theorem zero_cons_mem_tail :
    '0' :: w ∈ Radix.decimal.tail.matches' ↔ w ∈ Radix.decimal.tail.matches' := by
  have hassoc : Radix.decimal.tail.matches' = ((oneOf Radix.decimal.digits).star *
      (maybe (oneOf ['.'] * (oneOf Radix.decimal.digits).star) *
        (maybe Radix.exponent * maybe (oneOf ['i'])))).matches' := mul_assoc _ _ _
  rw [hassoc]
  exact cons_mem_star_mul (by decide) (by decide)

/-- A zero alone is a decimal number. -/
theorem zero_mem_tail : ['0'] ∈ Radix.decimal.tail.matches' := by
  rw [← RegularExpression.rmatch_iff_matches']
  decide

/-- A magnitude is a decimal one, or has a marker behind a leading zero. -/
theorem mem_magnitude : w ∈ magnitude.matches' ↔ w ∈ Radix.decimal.tail.matches' ∨
    ∃ radix : Radix, ∃ r ∈ radix.markers, ∃ v ∈ radix.tail.matches', w = '0' :: r :: v := by
  have hmarked : ∀ radix : Radix, w ∈ (magnitude.marked radix).matches' ↔
      ∃ r ∈ radix.markers, ∃ v ∈ radix.tail.matches', w = '0' :: r :: v := by
    intro radix
    refine ⟨fun hw => ?_, ?_⟩
    -- a marked one has two runes at least
    · match w, hw with
      | [], hw => exact absurd hw nil_notMem_oneOf_mul
      | q :: [], hw => exact absurd (cons_mem_oneOf_mul.1 hw).2 nil_notMem_oneOf_mul
      | q :: r :: v, hw =>
        obtain ⟨hq, hrest⟩ := cons_mem_oneOf_mul.1 hw
        obtain ⟨hr, hv⟩ := cons_mem_oneOf_mul.1 hrest
        rw [List.mem_singleton.1 hq]
        exact ⟨r, hr, v, hv, rfl⟩
    · rintro ⟨r, hr, v, hv, rfl⟩
      exact cons_mem_oneOf_mul.2 ⟨List.mem_singleton_self '0', cons_mem_oneOf_mul.2 ⟨hr, hv⟩⟩
  have hsum : w ∈ magnitude.matches' ↔ w ∈ Radix.decimal.tail.matches' ∨
      w ∈ (magnitude.marked .hexadecimal).matches' ∨ w ∈ (magnitude.marked .octal).matches' ∨
        w ∈ (magnitude.marked .binary).matches' := Iff.rfl
  rw [hsum, hmarked, hmarked, hmarked]
  refine or_congr_right ⟨?_, ?_⟩
  · rintro (h | h | h)
    · exact ⟨_, h⟩
    · exact ⟨_, h⟩
    · exact ⟨_, h⟩
  · rintro ⟨radix, h⟩
    cases radix with
    | decimal =>
      obtain ⟨r, hr, -⟩ := h
      cases hr
    | hexadecimal => exact .inl h
    | octal => exact .inr (.inl h)
    | binary => exact .inr (.inr h)

/-- A beginning of a magnitude is one. -/
theorem prefixClosed_magnitude : PrefixClosed magnitude := by
  have hdecimal := Radix.prefixClosed_tail .decimal
  intro w u hw hu
  rw [mem_magnitude] at hw ⊢
  obtain hw | ⟨radix, r, hr, v, hv, rfl⟩ := hw
  · exact .inl (hdecimal hw hu)
  · -- it may break off before the marker or behind it
    match u, hu with
    | [], hu => exact .inl (hdecimal zero_mem_tail List.nil_prefix)
    | q :: [], hu =>
      -- the zero alone is a decimal number
      obtain ⟨rfl, -⟩ := List.cons_prefix_cons.1 hu
      exact .inl zero_mem_tail
    | q :: r' :: u, hu =>
      obtain ⟨rfl, hrest⟩ := List.cons_prefix_cons.1 hu
      obtain ⟨rfl, hv'⟩ := List.cons_prefix_cons.1 hrest
      exact .inr ⟨radix, r', hr, u, radix.prefixClosed_tail hv hv', rfl⟩

/-! ### The longest number -/

/-- A leading zero in front of the longest decimal number makes a longest one again. -/
theorem Longest.zero_cons {taken rest : List Char}
    (h : Longest Radix.decimal.tail ahead taken rest) :
    Longest Radix.decimal.tail ('0' :: ahead) ('0' :: taken) rest := by
  refine ⟨?_, zero_cons_mem_tail.2 h.mem, fun w hw hprefix => ?_⟩
  · rw [h.split]
    rfl
  · cases w with
    | nil => exact List.nil_prefix
    | cons q w =>
      obtain ⟨rfl, hrest⟩ := List.cons_prefix_cons.1 hprefix
      exact List.cons_prefix_cons.2 ⟨rfl, h.longest w (zero_cons_mem_tail.1 hw) hrest⟩

/-- Without a leading zero, or with one that announces no notation, a number is decimal. -/
theorem longest_magnitude_of_decimal {taken rest : List Char}
    (hlongest : Longest Radix.decimal.tail ahead taken rest)
    (hplain : ∀ r tail, ahead = '0' :: r :: tail → Radix.ofMarker? r = none) :
    Longest magnitude ahead taken rest := by
  refine ⟨hlongest.split, mem_magnitude.2 (.inl hlongest.mem), fun w hw hprefix => ?_⟩
  obtain hw | ⟨radix, r, hr, v, -, rfl⟩ := mem_magnitude.1 hw
  · exact hlongest.longest w hw hprefix
  · obtain ⟨tail, rfl⟩ := hprefix
    have hnone := hplain r (v ++ tail) rfl
    rw [Radix.ofMarker?_eq_some_iff.2 hr] at hnone
    cases hnone

/-- Behind a leading zero and a marker, a number is of the notation that the marker announces. -/
theorem longest_magnitude_of_marker {radix : Radix} {taken rest : List Char}
    (hr : r ∈ radix.markers) (hlongest : Longest radix.tail ahead taken rest) :
    Longest magnitude ('0' :: r :: ahead) ('0' :: r :: taken) rest := by
  refine ⟨?_, mem_magnitude.2 (.inr ⟨radix, r, hr, taken, hlongest.mem, rfl⟩),
    fun w hw hprefix => ?_⟩
  · rw [hlongest.split]
    rfl
  · obtain hw | ⟨radix', q, hq, v, hv, rfl⟩ := mem_magnitude.1 hw
    · -- a decimal number cannot go beyond the zero
      have hmarker : disjoint radix.markers (letters Radix.decimal.tail) = true := by
        cases radix <;> decide
      have hzero : Longest Radix.decimal.tail (['0'] ++ r :: ahead) ['0'] (r :: ahead) := by
        refine longest_of_head zero_mem_tail fun q hq => ?_
        obtain rfl : r = q := Option.some.inj hq
        exact notMem_of_disjoint hmarker hr
      exact (hzero.longest w hw hprefix).trans ⟨r :: taken, rfl⟩
    · -- the marker tells the notation
      obtain ⟨-, hrest⟩ := List.cons_prefix_cons.1 hprefix
      obtain ⟨rfl, hv'⟩ := List.cons_prefix_cons.1 hrest
      have hradix : some radix' = some radix :=
        (Radix.ofMarker?_eq_some_iff.2 hq).symm.trans (Radix.ofMarker?_eq_some_iff.2 hr)
      obtain rfl := Option.some.inj hradix
      exact (List.prefix_append_right_inj ['0', q]).2 (hlongest.longest v hv hv')

namespace Cursor

/-! ### Reading them -/

/-- Digits and a fraction are read as far as they go. -/
theorem munches_readMantissa (radix : Radix) :
    Munches (fun c => (c.skip radix.isDigit).readFraction radix) radix.mantissa := by
  have hdigits := munches_skip radix.isDigit_iff
  have hpoint : ∀ r, (r == '.') = true ↔ r ∈ ['.'] := by simp
  have hfraction := hdigits.maybe_oneOf_mul hpoint
  simp only [← readFraction_eq] at hfraction
  exact hdigits.comp hfraction (by cases radix <;> decide)

/-- The test for the letter of an exponent and the list of letters agree. -/
theorem exponentLetter_iff (r : Char) : (r == 'e' || r == 'E') = true ↔ r ∈ ['e', 'E'] := by simp

/-- An exponent is read as far as it goes, if there is one. -/
theorem munches_readExponent : Munches (fun c => c.readExponent) (maybe Radix.exponent) := by
  have hsign : ∀ r, isSign r = true ↔ r ∈ ['+', '-'] := by simp [isSign]
  have hdigits := munches_skip (Radix.isDigit_iff .decimal)
  have hscale := (munches_skipOne hsign).comp hdigits (by decide)
  have hexponent := hscale.maybe_oneOf_mul exponentLetter_iff
  have hread : ∀ c : Cursor, c.readExponent = _ := readExponent_eq
  simp only [hread]
  exact hexponent

/-- A hexadecimal mantissa leaves no letter of an exponent behind: it would have been a digit. -/
theorem munches_readMantissa_readExponent :
    Munches (fun c => ((c.skip Radix.hexadecimal.isDigit).readFraction .hexadecimal).readExponent)
      Radix.hexadecimal.mantissa := by
  intro ahead
  obtain ⟨taken, rest, hlongest, hread⟩ := munches_readMantissa .hexadecimal ahead
  refine ⟨taken, rest, hlongest, fun {c _ _} hc => ?_⟩
  -- so the search for an exponent ends where it begins
  have hrest : rest.head?.any (fun r => r == 'e' || r == 'E') = false := by
    cases rest with
    | nil => rfl
    | cons r rest =>
      by_contra hletter
      have hr : r ∈ ['e', 'E'] := (exponentLetter_iff r).1 (Bool.not_eq_false _ ▸ hletter)
      have hdigits : ['e', 'E'] ⊆ Radix.hexadecimal.digits := by simp [Radix.digits]
      exact hlongest.concat_notMem (Radix.mem_mantissa_concat hlongest.mem (hdigits hr))
  have hmantissa := hread hc
  rw [← hmantissa.head?_eq] at hrest
  show ((c.skip Radix.hexadecimal.isDigit).readFraction .hexadecimal).readExponent.Holds _ _ _
  rw [readExponent_eq, if_neg (Bool.eq_false_iff.1 hrest), skipOne_of_not_any hrest]
  exact hmantissa.settle

/-- What follows a marker is read as far as it goes. -/
theorem munches_readDigits (radix : Radix) : Munches (readDigits radix) radix.tail := by
  have hletter : ∀ r, (r == 'i') = true ↔ r ∈ ['i'] := by simp
  have hunit := munches_skipOne hletter
  have hpower := munches_readExponent.comp hunit (by decide)
  unfold readDigits
  by_cases hradix : radix = .hexadecimal
  · have hall := munches_readMantissa_readExponent.comp hunit (by decide)
    rw [hradix, Radix.tail]
    exact hall
  -- no letter of an exponent or a unit is a digit in the other notations
  · have happart :
        apart radix.mantissa (maybe Radix.exponent * maybe (oneOf ['i'])) = true := by
      revert hradix
      cases radix <;> decide
    have hall := (munches_readMantissa radix).comp hpower happart
    rw [Radix.tail_of_ne hradix]
    exact hall

/-- A leading zero is read first. -/
theorem readMagnitude_of_zero {c : Cursor} (h : c.head? = some '0') :
    c.readMagnitude = (c.past '0').readMarked := by
  rw [readMagnitude_eq, h, skipOne_of_head h rfl]
  exact if_pos rfl

/-- Behind the zero a marker is read, with the digits of its notation. -/
theorem readMarked_of_marker {c : Cursor} {radix : Radix} (h : c.head? = some r)
    (hr : Radix.ofMarker? r = some radix) : c.readMarked = (c.past r).readDigits radix := by
  have hskip : c.skipOne (fun r => (Radix.ofMarker? r).isSome) = c.past r := by
    refine skipOne_of_head h ?_
    rw [hr]
    rfl
  rw [readMarked, h, Option.bind_some, hr, ← hskip]

/-- Where no marker comes, the digits are decimal. -/
theorem readMarked_of_none {c : Cursor} (h : c.head?.bind Radix.ofMarker? = none) :
    c.readMarked = c.settle.readDigits .decimal := by
  rw [readMarked, h]

/-- **What is read after a sign** is the longest word of the language. -/
theorem munches_readMagnitude : Munches readMagnitude magnitude := by
  intro ahead
  by_cases hzero : ahead.head? = some '0'
  · obtain ⟨tail, rfl⟩ := List.head?_eq_some_iff.1 hzero
    cases hmarker : tail.head?.bind Radix.ofMarker? with
    | some radix =>
      -- a zero and a marker
      obtain ⟨r, hr, hradix⟩ := Option.bind_eq_some_iff.1 hmarker
      obtain ⟨tail, rfl⟩ := List.head?_eq_some_iff.1 hr
      obtain ⟨taken, rest, hlongest, hread⟩ := munches_readDigits radix tail
      refine ⟨'0' :: r :: taken, rest,
        longest_magnitude_of_marker (Radix.ofMarker?_eq_some_iff.1 hradix) hlongest, ?_⟩
      intro c before piece hc
      have hpast := hc.past
      rw [readMagnitude_of_zero hc.head?_eq, readMarked_of_marker hpast.head?_eq hradix]
      have hdigits := hread hpast.past
      rwa [List.append_assoc, List.append_assoc] at hdigits
    | none =>
      -- the zero is read before it is known to be a digit like any other
      obtain ⟨taken, rest, hlongest, hread⟩ := munches_readDigits .decimal tail
      refine ⟨'0' :: taken, rest, longest_magnitude_of_decimal hlongest.zero_cons ?_, ?_⟩
      · intro r tail' htail
        obtain ⟨-, rfl⟩ := List.cons.inj htail
        exact hmarker
      · intro c before piece hc
        have hpast := hc.past
        rw [readMagnitude_of_zero hc.head?_eq,
          readMarked_of_none (hpast.head?_eq.symm ▸ hmarker)]
        have hdigits := hread hpast.settle
        rwa [List.append_assoc] at hdigits
  · obtain ⟨taken, rest, hlongest, hread⟩ := munches_readDigits .decimal ahead
    refine ⟨taken, rest, longest_magnitude_of_decimal hlongest ?_, ?_⟩
    · rintro r tail rfl
      exact absurd rfl hzero
    · intro c before piece hc
      have hnot : c.head?.any (· == '0') = false := by
        rw [hc.head?_eq, ← Bool.not_eq_true, Option.any_eq_true]
        rintro ⟨r, hr, hr'⟩
        exact hzero (beq_iff_eq.1 hr' ▸ hr)
      rw [readMagnitude_eq, hnot, if_neg Bool.false_ne_true, skipOne_of_not_any hnot]
      exact hread hc.settle

end Cursor

/-! ### Numerals -/

open Scanner

/-- A sign or none, and a magnitude that is not empty. Without a sign it begins with a digit. -/
structure Numeral (sign body : List Char) : Prop where
  sign_mem : sign ∈ [[], ['+'], ['-']]
  body_mem : body ∈ magnitude.matches'
  body_ne_nil : body ≠ []
  digit_first : sign = [] → ∃ r ∈ Radix.decimal.digits, body.head? = some r

/-- The runes are those of a numeral. -/
def IsNumeral (runes : List Char) : Prop :=
  ∃ sign body, runes = sign ++ body ∧ Numeral sign body

variable {sign body more before : List Char} {s : Scanner} {depths : Bracket → Nat}

/-- The runes of which numbers are made are word runes, points and signs. -/
theorem isWordRune_of_mem_letters (h : r ∈ letters magnitude) :
    isWordRune r = true ∨ r ∈ ['.', '+', '-'] := by
  have hall : (letters magnitude).all (fun r => isWordRune r || ['.', '+', '-'].contains r) =
      true := by decide +kernel
  have hr := List.all_eq_true.1 hall r h
  rwa [Bool.or_eq_true, List.contains_iff_mem] at hr

/-- What begins a magnitude may follow a sign. -/
theorem continuesSign_of_mem_initials (h : r ∈ initials magnitude) : continuesSign r = true := by
  have hall : (initials magnitude).all continuesSign = true := by decide +kernel
  exact List.all_eq_true.1 hall r h

/-- A numeral begins like a number. -/
theorem Numeral.signed (h : Numeral sign body) : Signed sign body := by
  obtain ⟨r, tail, rfl⟩ := List.exists_cons_of_ne_nil h.body_ne_nil
  have hnext : (r :: tail).head?.any continuesSign = true :=
    continuesSign_of_mem_initials (mem_initials h.body_mem)
  have hsign := h.sign_mem
  simp only [List.mem_cons, List.not_mem_nil, or_false] at hsign
  obtain rfl | rfl | rfl := hsign
  · obtain ⟨q, hq, hhead⟩ := h.digit_first rfl
    obtain rfl : r = q := Option.some.inj hhead
    exact .absent ((Radix.isDigit_iff .decimal r).2 hq)
  · exact .present rfl hnext
  · exact .present rfl hnext

/-- What begins like a number and is read whole is a numeral. -/
theorem numeral_of_signed (h : Signed sign body) (hbody : body ∈ magnitude.matches') :
    Numeral sign body := by
  cases h with
  | @absent r tail hr =>
    refine ⟨List.mem_cons_self, hbody, List.cons_ne_nil r tail, fun _ => ⟨r, ?_, rfl⟩⟩
    exact (Radix.isDigit_iff .decimal r).1 hr
  | @present r _ hr hnext =>
    refine ⟨?_, hbody, ?_, fun hnil => absurd hnil (List.cons_ne_nil r [])⟩
    · rw [Cursor.isSign, Bool.or_eq_true, beq_iff_eq, beq_iff_eq] at hr
      obtain rfl | rfl := hr <;> decide
    · rintro rfl
      cases hnext

namespace Scanner

/-! ### Scanning them -/

/-- A sign or a numeral, with a word rune after it, begins like a number. -/
theorem Signed.concat (h : Signed sign body) (r : Char) : Signed sign (body ++ [r]) := by
  cases h with
  | absent hr => exact .absent hr
  | present hr hnext =>
    cases body with
    | nil => cases hnext
    | cons q body => exact .present hr hnext

/-- **A numeral is one token**, if what comes after it can neither go on with it nor spoil it. -/
theorem Stands.numeral (h : s.Stands before (sign ++ (body ++ more)) depths)
    (hnumeral : Numeral sign body)
    (hmore : ∀ r, more.head? = some r → isWordRune r = false ∧ r ∉ ['.', '+', '-']) :
    ∃ s' : Scanner, s'.Stands (before ++ (sign ++ body)) more depths ∧
      s.run.tokens = .ofPiece .number before (sign ++ body) :: s'.run.tokens := by
  obtain ⟨c, hc, hgoto, hstep⟩ := h.exists_magnitude hnumeral.signed
  -- nothing of what comes after it is a letter of the language
  have hlongest : Longest magnitude (body ++ more) body more := by
    refine longest_of_head hnumeral.body_mem fun r hr hletter => ?_
    obtain ⟨hword, hother⟩ := hmore r hr
    obtain hletter | hletter := isWordRune_of_mem_letters hletter
    · rw [hword] at hletter
      cases hletter
    · exact hother hletter
  have hread := Cursor.munches_readMagnitude.holds hlongest hc
  have hend : c.readMagnitude.head?.any isWordRune = false := by
    rw [hread.head?_eq, Option.any_eq_false]
    exact fun r hr => (hmore r hr).1
  exact h.emits_of_goto hgoto (hstep.trans (scanMagnitude_of_end hend)) hread

/-- **A word rune spoils a number** that it does not go on with. -/
theorem Stands.spoiled (h : s.Stands before (sign ++ (body ++ r :: more)) depths)
    (hsigned : Signed sign (body ++ [r])) (hbody : body ∈ magnitude.matches')
    (hr : isWordRune r = true) (hnot : body ++ [r] ∉ magnitude.matches') :
    s.run.tokens = [⟨.error,
      "bad number syntax: " ++ quoteText (String.ofList (sign ++ (body ++ [r]))),
      ⟨byteLength before, byteLength before + byteLength (sign ++ (body ++ [r]))⟩⟩] := by
  have hsplit : body ++ r :: more = body ++ [r] ++ more := List.append_cons body r more
  rw [hsplit] at h
  obtain ⟨c, hc, hgoto, hstep⟩ := h.exists_magnitude hsigned
  rw [← hsplit] at hc
  have hread := Cursor.munches_readMagnitude.holds
    (prefixClosed_magnitude.longest_of_notMem hbody hnot) hc
  have hpast := hread.past
  rw [List.append_assoc] at hpast
  have hspoiled := scanMagnitude_of_word (s := s.moveTo s.cursor.settle) hread.head?_eq hr
  rw [tokens_run_of_goto_of_fail hgoto (hstep.trans hspoiled), hpast.pending_eq, Cursor.span,
    hpast.mark_eq, hpast.offset_eq]

end Scanner

/-- The tokens that are numbers are made of numerals. -/
theorem Formed.isNumeral {kind : TokenKind} {runes : List Char} (h : Formed kind runes)
    (hkind : kind = .number) : IsNumeral runes := by
  cases h with
  -- words have kinds of their own
  | word => exact absurd hkind (TokenKind.ofWord_ne rfl _)
  | @number sign digits hsigned hreads =>
    refine ⟨sign, digits, rfl, numeral_of_signed hsigned ?_⟩
    -- it is read whole, and what is read is the longest word
    have hnew := Cursor.holds_ofSource (String.ofList digits)
    rw [String.toList_ofList] at hnew
    obtain ⟨taken, rest, hlongest, hread⟩ := Cursor.munches_readMagnitude digits
    have hwhole := hreads.holds (by rwa [List.append_nil]) (.inr inert_nil)
    obtain ⟨htaken, -⟩ := hwhole.piece_unique (hread hnew)
    obtain rfl : digits = taken := htaken
    exact hlongest.mem
  | delimited encloses => cases encloses <;> cases hkind
  | _ => cases hkind

/-- If the token is a number, it stands in the source, and no word rune comes after it there. -/
def Token.SetOff (source : String) (t : Token) : Prop :=
  t.kind = .number → ∃ front back, source.toList = front ++ (t.text.toList ++ back) ∧
    t.span = ⟨byteLength front, byteLength front + t.text.utf8ByteSize⟩ ∧
    ∀ r, back.head? = some r → isWordRune r = false

/-- A number that was cut out of the source, with no word rune after it, is set off. -/
theorem Token.setOff_ofPiece {source : String} {front piece back : List Char}
    (hsource : source.toList = front ++ (piece ++ back))
    (hback : ∀ r, back.head? = some r → isWordRune r = false) :
    (Token.ofPiece .number front piece).SetOff source := by
  intro _
  refine ⟨front, back, ?_, ?_, hback⟩
  · rw [Token.ofPiece, String.toList_ofList]
    exact hsource
  · rw [Token.ofPiece, utf8ByteSize_eq_byteLength, String.toList_ofList]

/-- Nothing is asked of other tokens. -/
theorem Token.setOff_of_kind {source : String} {t : Token} (h : t.kind ≠ .number) :
    t.SetOff source := fun hkind => absurd hkind h

namespace Scanner

/-- **Every state sets its numbers off.** -/
theorem setOff_of_mem_step (h : s.cursor.Sound) (state : ScanState) :
    ∀ t ∈ (s.step state).tokens, t.SetOff s.cursor.source := by
  have hdoes := does_step s state
  generalize s.step state = step at hdoes ⊢
  cases hdoes with
  | finish | beginRun | beginQuoted | beginChar | beginComment | pass =>
    intro t ht
    cases ht
  | unclosed | stray | unknown | badChar | badNumber | badWord | cutEmpty =>
    exact List.forall_mem_singleton.2 (Token.setOff_of_kind nofun)
  | slash | opening | closing | literal | char | sign =>
    exact List.forall_mem_singleton.2 (Token.setOff_of_kind nofun)
  | report collects =>
    refine List.forall_mem_singleton.2 (Token.setOff_of_kind ?_)
    cases collects <;> exact nofun
  | closeKept encloses | closeDropped encloses =>
    refine List.forall_mem_singleton.2 (Token.setOff_of_kind ?_)
    cases encloses <;> exact nofun
  | cut encloses =>
    refine List.forall_mem_cons.2
      ⟨Token.setOff_of_kind ?_, List.forall_mem_singleton.2 (Token.setOff_of_kind nofun)⟩
    cases encloses <;> exact nofun
  | word =>
    exact List.forall_mem_singleton.2 (Token.setOff_of_kind (TokenKind.ofWord_ne rfl _))
  | @number signed c haccept hhead =>
    -- the sign, if any, and the digits are taken one after the other
    obtain ⟨before, piece, ahead, hc⟩ := h
    obtain ⟨sign, tail, rfl, hsign⟩ := Cursor.Extends.accept Cursor.solid_isSign haccept hc
    obtain ⟨digits, rest, rfl, hread⟩ := Cursor.local_readMagnitude.exists_holds hsign
    rw [tokens_emit, hread.token_eq]
    have hsource : s.cursor.source.toList = before ++ (piece ++ sign ++ digits ++ rest) := by
      rw [hc.source_eq]
      simp only [List.append_assoc]
    rw [hread.head?_eq] at hhead
    exact List.forall_mem_singleton.2 (Token.setOff_ofPiece hsource hhead)

/-- So does a scan. -/
theorem setOff_of_mem_lexWith (options : ScanOptions) (source : String) :
    ∀ t ∈ lexWith options source, t.SetOff source := by
  refine forall_mem_drive
    (I := fun s _ => s.cursor.Sound ∧ s.cursor.source = source) ?_ _
    ⟨Cursor.sound_ofSource source, rfl⟩
  -- a step keeps the cursor sound, and never changes its source
  rintro s state ⟨hsound, rfl⟩
  refine ⟨setOff_of_mem_step hsound state, fun next s' hresult => ?_⟩
  have honward := (safe_step hsound state).tokens.1
  rw [hresult] at honward
  exact ⟨honward.sound, honward.source_eq⟩

/-- A token that is left at the end of a scan is no number. -/
theorem Ending.kind_ne_number {source : String} {rendered : List Char} {ending : List Token}
    (h : Ending source rendered ending) : ∀ t ∈ ending, t.kind ≠ .number := by
  cases h with
  | finished => exact List.forall_mem_nil _
  | failed e error =>
    refine List.forall_mem_singleton.2 ?_
    rw [error]
    exact nofun
  | @cutOff state form ahead encloses =>
    refine List.forall_mem_append.2 ⟨fun t ht => ?_, List.forall_mem_singleton.2 nofun⟩
    split_ifs at ht
    · cases ht
    · rw [List.mem_singleton.1 ht]
      cases encloses <;> exact nofun

/-- A number that is found in a source is a numeral. -/
theorem isNumeral_of_mem_lexWith {options : ScanOptions} {source : String} {t : Token}
    (ht : t ∈ lexWith options source) (hkind : t.kind = .number) : IsNumeral t.text.toList := by
  obtain ⟨ts, ending, rendered, hlex, hformed, hending⟩ := exists_formed_ending options source
  rw [hlex] at ht
  obtain ht | ht := List.mem_append.1 ht
  · -- tokens before the end are formed
    have htrivia : t.kind.isTrivia = false := by
      rw [hkind]
      rfl
    exact (hformed t ht htrivia).isNumeral hkind
  · exact absurd hkind (hending.kind_ne_number t ht)

/-- A numeral is a token of its own, and the rest is scanned by itself. -/
theorem lex_append_of_isNumeral {text more : String} (h : IsNumeral text.toList)
    (hmore : ∀ r, more.toList.head? = some r → isWordRune r = false ∧ r ∉ ['.', '+', '-']) :
    lex (text ++ more) = ⟨.number, text, ⟨0, text.utf8ByteSize⟩⟩ ::
      (lex more).map (·.shift text.utf8ByteSize) := by
  obtain ⟨sign, body, hsplit, hnumeral⟩ := h
  have hstart := stands_ofSource (text ++ more)
  rw [String.toList_append, hsplit, List.append_assoc] at hstart
  obtain ⟨s, hs, htokens⟩ := hstart.numeral hnumeral hmore
  rw [← hsplit, ofPiece_nil] at htokens
  rw [List.nil_append, ← hsplit] at hs
  rw [lex_eq_cons hs htokens, utf8ByteSize_eq_byteLength]

/-- A sign or a numeral, and a word rune that does not go on with it. -/
theorem lex_append_of_not_isNumeral {text more : String}
    (h : IsNumeral text.toList ∨ text = "+" ∨ text = "-") (hr : isWordRune r = true)
    (hnot : ¬ IsNumeral (text.toList ++ [r])) :
    lex (text ++ String.singleton r ++ more) =
      [⟨.error, "bad number syntax: " ++ quoteText (text ++ String.singleton r),
        ⟨0, text.utf8ByteSize + r.utf8Size⟩⟩] := by
  obtain ⟨sign, body, hsplit, hbody, hsigned⟩ : ∃ sign body, text.toList = sign ++ body ∧
      body ∈ magnitude.matches' ∧ Signed sign (body ++ [r]) := by
    -- a sign alone is no numeral, but a magnitude of nothing begins after it
    have hlone : ∀ {q : Char}, text.toList = [q] → Cursor.isSign q = true →
        ∃ sign body, text.toList = sign ++ body ∧ body ∈ magnitude.matches' ∧
          Signed sign (body ++ [r]) := by
      intro q htext hq
      refine ⟨[q], [], htext, prefixClosed_magnitude (mem_magnitude.2 (.inl zero_mem_tail))
        List.nil_prefix, .present hq ?_⟩
      show continuesSign r = true
      rw [continuesSign, hr, Bool.or_true]
    obtain ⟨sign, body, hsplit, hnumeral⟩ | rfl | rfl := h
    · exact ⟨sign, body, hsplit, hnumeral.body_mem, hnumeral.signed.concat r⟩
    · exact hlone rfl rfl
    · exact hlone rfl rfl
  have hlonger : body ++ [r] ∉ magnitude.matches' := by
    intro hmem
    refine hnot ⟨sign, body ++ [r], ?_, numeral_of_signed hsigned hmem⟩
    rw [hsplit, List.append_assoc]
  have htext : (text ++ String.singleton r).toList = sign ++ (body ++ [r]) := by
    rw [String.toList_append, hsplit, String.toList_singleton, List.append_assoc]
  have hstart := stands_ofSource (text ++ String.singleton r ++ more)
  rw [String.toList_append, htext, List.append_assoc, List.append_assoc, List.singleton_append]
    at hstart
  have htokens := hstart.spoiled hsigned hbody hr hlonger
  rw [← htext, String.ofList_toList, byteLength_nil, Nat.zero_add, ← utf8ByteSize_eq_byteLength,
    String.utf8ByteSize_append, String.utf8ByteSize_singleton] at htokens
  exact htokens

/-- **Numbers are numerals, and numerals are numbers.** A source is one number token exactly if it
is a numeral. A numeral before a rune that is no word rune, point or sign is a token, and the rest
is scanned by itself. Every number that is found in a source is a numeral, and no word rune comes
after it there; for a word rune that does not go on with a numeral, or with a sign, is an error. -/
theorem lex_numeral :
    (∀ text : String, lex text = [⟨.number, text, ⟨0, text.utf8ByteSize⟩⟩] ↔
      IsNumeral text.toList) ∧
    (∀ text more : String, IsNumeral text.toList →
      (∀ r, more.toList.head? = some r → isWordRune r = false ∧ r ∉ ['.', '+', '-']) →
      lex (text ++ more) = ⟨.number, text, ⟨0, text.utf8ByteSize⟩⟩ ::
        (lex more).map (·.shift text.utf8ByteSize)) ∧
    (∀ (options : ScanOptions) (source : String), ∀ t ∈ lexWith options source,
      t.kind = .number → IsNumeral t.text.toList ∧
        ∃ front back, source.toList = front ++ (t.text.toList ++ back) ∧
          t.span = ⟨byteLength front, byteLength front + t.text.utf8ByteSize⟩ ∧
          ∀ r, back.head? = some r → isWordRune r = false) ∧
    ∀ (text more : String) (r : Char), IsNumeral text.toList ∨ text = "+" ∨ text = "-" →
      isWordRune r = true → ¬ IsNumeral (text.toList ++ [r]) →
      lex (text ++ String.singleton r ++ more) =
        [⟨.error, "bad number syntax: " ++ quoteText (text ++ String.singleton r),
          ⟨0, text.utf8ByteSize + r.utf8Size⟩⟩] := by
  refine ⟨fun text => ⟨fun hlex => ?_, fun hnumeral => ?_⟩,
    fun _ _ => lex_append_of_isNumeral, fun options source t ht hkind => ?_,
    fun _ _ _ => lex_append_of_not_isNumeral⟩
  · exact isNumeral_of_mem_lexWith (hlex ▸ List.mem_singleton_self _) rfl
  · have halone : lex (text ++ "") = _ := lex_append_of_isNumeral hnumeral nofun
    rwa [String.append_empty] at halone
  · exact ⟨isNumeral_of_mem_lexWith ht hkind, setOff_of_mem_lexWith options source t ht hkind⟩

/-- A hexadecimal number before a mark, and a decimal one that an underscore spoils. -/
theorem lex_numeral_of_two_notations :
    lex ("-0x1e.8i" ++ ";") = [⟨.number, "-0x1e.8i", ⟨0, 8⟩⟩, ⟨.literal, ";", ⟨8, 9⟩⟩] ∧
      lex ("1" ++ String.singleton '_' ++ ".5") =
        [⟨.error, "bad number syntax: \"1_\"", ⟨0, 2⟩⟩] := by
  have hhexadecimal : IsNumeral "-0x1e.8i".toList := (lex_numeral.1 _).1 (by decide +kernel)
  have hdecimal : IsNumeral "1".toList := (lex_numeral.1 _).1 (by decide +kernel)
  have hspoiled : ¬ IsNumeral ("1".toList ++ ['_']) := by
    intro hnumeral
    have hlex := (lex_numeral.1 "1_").2 hnumeral
    exact absurd hlex (by decide +kernel)
  refine ⟨?_, ?_⟩
  · refine (lex_numeral.2.1 "-0x1e.8i" ";" hhexadecimal ?_).trans (by decide +kernel)
    intro r hr
    obtain rfl : ';' = r := Option.some.inj hr
    decide
  · refine (lex_numeral.2.2.2 "1" ".5" '_' (.inl hdecimal) rfl hspoiled).trans ?_
    decide +kernel

end Scanner

end DeclFront
