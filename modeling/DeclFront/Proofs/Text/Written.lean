import DeclFront.Dump.Json
import DeclFront.Proofs.Text.Reading

/-!
# Texts that can be read back

A dump puts texts, numbers and names next to one another, and no text is so strange that it could be
taken for its surroundings. This module says why, for each of the three, whatever stands after it:

* a number or a name is a run of runes of one sort, and ends where a rune of another sort stands
  (`append_inj_of_run`);
* a rune of a quoted text is `Written` in one of four forms, each of which `unescape` reads back and
  none of which begins with a quote. So a quoted text ends at the first quote that is left when all
  forms before it are read (`quoted_inj_of_written`).

JSON texts and the texts of messages and outlines differ in which runes are escaped and in how code
points are given, but no form means one rune in the one and another in the other. So the four forms
and their reader are stated once, for both.
-/

namespace DeclFront

/-! ### Runs -/

/-- Two runs of one sort, each ended by a rune of another sort or by nothing. -/
theorem append_inj_of_run {p : Char → Bool} {run other rest rest' : List Char}
    (hrun : ∀ r ∈ run, p r = true) (hother : ∀ r ∈ other, p r = true)
    (hrest : ∀ r, rest.head? = some r → p r = false)
    (hrest' : ∀ r, rest'.head? = some r → p r = false) (h : run ++ rest = other ++ rest') :
    run = other ∧ rest = rest' := by
  -- where a rune of another sort stands, no run begins
  have hends : ∀ {rest : List Char}, (∀ r, rest.head? = some r → p r = false) →
      rest.takeWhile p = [] := by
    intro rest hrest
    refine (takeWhile_eq_nil_of_head fun r hr => ?_).1
    rw [hrest r hr]
    exact Bool.false_ne_true
  have hsame : run = other := by
    have htake := congrArg (List.takeWhile p) h
    rwa [List.takeWhile_append_of_pos hrun, List.takeWhile_append_of_pos hother, hends hrest,
      hends hrest', List.append_nil, List.append_nil] at htake
  subst hsame
  exact ⟨rfl, List.append_cancel_left h⟩

/-! ### Digits -/

/-- The value of a digit, lower-case letters included. -/
def digitValue (r : Char) : Nat :=
  if r.toNat < 0x61 then r.toNat - 0x30 else r.toNat - 0x57

/-- Each digit has its value. -/
theorem digitValue_digitChar {d : Nat} (h : d < 16) : digitValue (Nat.digitChar d) = d := by
  have hall : ∀ d < 16, digitValue (Nat.digitChar d) = d := by decide
  exact hall d h

/-- The number that digits stand for. -/
def readDigits (base : Nat) (digits : List Char) : Nat :=
  digits.foldl (fun n r => base * n + digitValue r) 0

section Digits

variable {base : Nat}

/-- Digits are read back. -/
theorem readDigits_toDigits (hlow : 1 < base) (hhigh : base ≤ 16) (n : Nat) :
    readDigits base (Nat.toDigits base n) = n := by
  induction n using Nat.strongRecOn with
  | _ n ih =>
    by_cases hn : n < base
    · rw [Nat.toDigits_of_lt_base hn]
      show base * 0 + digitValue (Nat.digitChar n) = n
      rw [digitValue_digitChar (by omega), Nat.mul_zero, Nat.zero_add]
    · -- the last digit is the remainder, and the digits before it are those of the quotient
      have hpos : 0 < n := by omega
      have hmod : n % base < base := Nat.mod_lt n (by omega)
      have hquot := ih (n / base) (Nat.div_lt_self hpos hlow)
      rw [Nat.toDigits_of_base_le hlow (by omega), readDigits, List.foldl_append]
      show base * readDigits base (Nat.toDigits base (n / base)) +
        digitValue (Nat.digitChar (n % base)) = n
      rw [hquot, digitValue_digitChar (by omega)]
      exact Nat.div_add_mod n base

/-- Numbers are told apart by their digits. -/
theorem toDigits_injective (hlow : 1 < base) (hhigh : base ≤ 16) {n m : Nat}
    (h : Nat.toDigits base n = Nat.toDigits base m) : n = m := by
  rw [← readDigits_toDigits hlow hhigh n, h, readDigits_toDigits hlow hhigh]

/-- What holds of every digit below the base. -/
theorem forall_mem_toDigits {P : Char → Prop} (hlow : 1 < base)
    (hP : ∀ d < base, P (Nat.digitChar d)) (n : Nat) : ∀ r ∈ Nat.toDigits base n, P r := by
  induction n using Nat.strongRecOn with
  | _ n ih =>
    intro r hr
    by_cases hn : n < base
    · rw [Nat.toDigits_of_lt_base hn] at hr
      obtain rfl := List.mem_singleton.1 hr
      exact hP n hn
    · rw [Nat.toDigits_of_base_le hlow (by omega)] at hr
      obtain hr | hr := List.mem_append.1 hr
      · exact ih (n / base) (Nat.div_lt_self (by omega) hlow) r hr
      · obtain rfl := List.mem_singleton.1 hr
        exact hP (n % base) (Nat.mod_lt n (by omega))

/-- A rune that is no hexadecimal digit is not among the digits of a number. -/
theorem ne_of_mem_hexDigits {q : Char} (hq : ∀ d < 16, Nat.digitChar d ≠ q) (n : Nat) :
    ∀ r ∈ hexDigits n, r ≠ q :=
  forall_mem_toDigits (by decide) hq n

end Digits

/-! ### Written runes -/

/-- The rune that stands for itself, or for another one, after a backslash. -/
def unmark : Char → Char
  | '0' => '\x00'
  | 'b' => '\x08'
  | 't' => '\t'
  | 'n' => '\n'
  | 'f' => '\x0c'
  | 'r' => '\r'
  | r => r

/-- Read back one rune, and leave what stands after its written form. -/
def unescape : List Char → Option (Char × List Char)
  | '\\' :: 'u' :: '\x7b' :: rest =>
    some (.ofNat (readDigits 16 (rest.takeWhile (· != '\x7d'))),
      (rest.dropWhile (· != '\x7d')).tail)
  | '\\' :: 'u' :: rest => some (.ofNat (readDigits 16 (rest.take 4)), rest.drop 4)
  | '\\' :: r :: rest => some (unmark r, rest)
  | r :: rest => some (r, rest)
  | [] => none

/-- The ways to write a rune between double quotes. -/
inductive Written : Char → List Char → Prop
  /-- By a rune after a backslash. -/
  | marked (mark : Char) (hmark : mark ∈ ['0', 'b', 't', 'n', 'f', 'r', '\\', '"']) :
      Written (unmark mark) ['\\', mark]
  /-- By its code point in braces. -/
  | braced (r : Char) : Written r (['\\', 'u', '\x7b'] ++ hexDigits r.toNat ++ ['\x7d'])
  /-- By its code point in four digits. -/
  | padded {r : Char} (hr : r.toNat < 0x20) :
      Written r (['\\', 'u'] ++ (hexDigits r.toNat).leftpad 4 '0')
  /-- By itself. -/
  | plain {r : Char} (hslash : r ≠ '\\') (hquote : r ≠ '"') (hline : r ≠ '\n') : Written r [r]

namespace Written

variable {r : Char} {form : List Char}

/-- A code point in braces is read back. -/
theorem unescape_braced (r : Char) (rest : List Char) :
    unescape (['\\', 'u', '\x7b'] ++ hexDigits r.toNat ++ ['\x7d'] ++ rest) = some (r, rest) := by
  have hdigits : ∀ q ∈ hexDigits r.toNat, (q != '\x7d') = true := by
    intro q hq
    rw [bne_iff_ne]
    exact ne_of_mem_hexDigits (by decide) _ q hq
  -- the digits run up to the closing brace, which is none of them
  show some (Char.ofNat (readDigits 16
    ((hexDigits r.toNat ++ ['\x7d'] ++ rest).takeWhile (· != '\x7d'))),
    ((hexDigits r.toNat ++ ['\x7d'] ++ rest).dropWhile (· != '\x7d')).tail) = _
  rw [List.append_assoc, List.takeWhile_append_of_pos hdigits, List.dropWhile_append_of_pos hdigits]
  show some (Char.ofNat (readDigits 16 (hexDigits r.toNat ++ [])), rest) = _
  rw [List.append_nil, hexDigits, readDigits_toDigits (by decide) (by decide), Char.ofNat_toNat]

/-- A code point in four digits is read back. -/
theorem unescape_padded (hr : r.toNat < 0x20) (rest : List Char) :
    unescape (['\\', 'u'] ++ (hexDigits r.toNat).leftpad 4 '0' ++ rest) = some (r, rest) := by
  -- a control has at most two digits, so that two zeros stand before them
  have hpad : ∀ n < 0x20, (hexDigits n).leftpad 4 '0' =
      ['0', '0', Nat.digitChar (n / 16), Nat.digitChar (n % 16)] := by decide
  have hvalue : ∀ n < 0x20,
      readDigits 16 ['0', '0', Nat.digitChar (n / 16), Nat.digitChar (n % 16)] = n := by decide
  rw [hpad r.toNat hr]
  show some (Char.ofNat (readDigits 16
    ['0', '0', Nat.digitChar (r.toNat / 16), Nat.digitChar (r.toNat % 16)]), rest) = _
  rw [hvalue r.toNat hr, Char.ofNat_toNat]

/-- A rune that stands for itself is read back. -/
theorem unescape_plain (hslash : r ≠ '\\') (rest : List Char) :
    unescape (r :: rest) = some (r, rest) := by
  -- only a backslash is read in another way
  unfold unescape
  split <;> simp_all

/-- **A written rune is read back.** -/
theorem read (h : Written r form) (rest : List Char) :
    unescape (form ++ rest) = some (r, rest) := by
  cases h with
  | marked mark hmark =>
    simp only [List.mem_cons, List.not_mem_nil, or_false] at hmark
    obtain rfl | rfl | rfl | rfl | rfl | rfl | rfl | rfl := hmark <;> rfl
  | braced => exact unescape_braced r rest
  | padded hr => exact unescape_padded hr rest
  | plain hslash => exact unescape_plain hslash rest

/-- A written rune does not begin with a quote. -/
theorem append_ne_quote (h : Written r form) (rest rest' : List Char) :
    form ++ rest ≠ '"' :: rest' := by
  intro heq
  cases h with
  | plain _ hquote => exact hquote (List.cons.inj heq).1
  -- every other form begins with a backslash
  | _ => exact absurd (List.cons.inj heq).1 (by decide)

/-- A written rune does not break the line. -/
theorem notMem_newline (h : Written r form) : '\n' ∉ form := by
  have hdigits : ∀ n, '\n' ∉ hexDigits n := fun n hmem =>
    ne_of_mem_hexDigits (by decide) n '\n' hmem rfl
  cases h with
  | marked mark hmark =>
    intro hmem
    obtain hslash | hmem := List.mem_cons.1 hmem
    · exact absurd hslash (by decide)
    · rw [← List.mem_singleton.1 hmem] at hmark
      exact absurd hmark (by decide)
  | braced => simp [hdigits]
  | padded => simp [List.leftpad, hdigits]
  | plain _ _ hline =>
    rw [List.mem_singleton]
    exact Ne.symm hline

end Written

/-! ### Quoted texts -/

section Quoted

variable {code : Char → List Char} {runes others rest rest' : List Char}

/-- Written runes side by side, up to the first quote that is left. -/
theorem flatMap_inj_of_written (hcode : ∀ r, Written r (code r))
    (h : runes.flatMap code ++ '"' :: rest = others.flatMap code ++ '"' :: rest') :
    runes = others ∧ rest = rest' := by
  induction runes generalizing others with
  | nil =>
    cases others with
    | nil => exact ⟨rfl, (List.cons.inj h).2⟩
    | cons q others =>
      rw [List.flatMap_cons, List.append_assoc] at h
      exact absurd h.symm ((hcode q).append_ne_quote _ _)
  | cons r runes ih =>
    cases others with
    | nil =>
      rw [List.flatMap_cons, List.append_assoc] at h
      exact absurd h ((hcode r).append_ne_quote _ _)
    | cons q others =>
      -- the first rune is read back on both sides
      rw [List.flatMap_cons, List.flatMap_cons, List.append_assoc, List.append_assoc] at h
      have hread := congrArg unescape h
      rw [(hcode r).read, (hcode q).read, Option.some.injEq, Prod.mk.injEq] at hread
      obtain ⟨rfl, htail⟩ := hread
      obtain ⟨rfl, hrest⟩ := ih htail
      exact ⟨rfl, hrest⟩

/-- **Quoted texts** can be told apart, and from what comes after them. -/
theorem quoted_inj_of_written (hcode : ∀ r, Written r (code r))
    (h : '"' :: (runes.flatMap code ++ ['"']) ++ rest =
      '"' :: (others.flatMap code ++ ['"']) ++ rest') :
    runes = others ∧ rest = rest' := by
  refine flatMap_inj_of_written hcode ?_
  simpa using h

end Quoted

/-- A rune of a quoted text, whichever runes are hidden. -/
theorem written_escape (hidden : Char → Bool) (r : Char) : Written r (escape hidden '"' r) := by
  unfold escape
  -- by the runes in the order in which they are asked for
  by_cases hnul : r = '\x00'
  · rw [if_pos hnul, hnul]
    exact .marked '0' (by decide)
  rw [if_neg hnul]
  by_cases htab : r = '\t'
  · rw [if_pos htab, htab]
    exact .marked 't' (by decide)
  rw [if_neg htab]
  by_cases hcr : r = '\r'
  · rw [if_pos hcr, hcr]
    exact .marked 'r' (by decide)
  rw [if_neg hcr]
  by_cases hline : r = '\n'
  · rw [if_pos hline, hline]
    exact .marked 'n' (by decide)
  rw [if_neg hline]
  by_cases hslash : r = '\\'
  · rw [if_pos hslash, hslash]
    exact .marked '\\' (by decide)
  rw [if_neg hslash]
  by_cases hquote : r = '"'
  · rw [if_pos hquote, hquote]
    exact .marked '"' (by decide)
  rw [if_neg hquote]
  by_cases hhidden : hidden r = true
  · rw [if_pos hhidden]
    exact .braced r
  rw [if_neg hhidden]
  exact .plain hslash hquote hline

/-- A rune of a JSON text. -/
theorem written_escapeRune (r : Char) : Written r (Json.escapeRune r) := by
  unfold Json.escapeRune
  -- the same, in the order of the JSON writer
  by_cases hquote : r = '"'
  · rw [if_pos hquote, hquote]
    exact .marked '"' (by decide)
  rw [if_neg hquote]
  by_cases hslash : r = '\\'
  · rw [if_pos hslash, hslash]
    exact .marked '\\' (by decide)
  rw [if_neg hslash]
  by_cases hback : r = '\x08'
  · rw [if_pos hback, hback]
    exact .marked 'b' (by decide)
  rw [if_neg hback]
  by_cases htab : r = '\t'
  · rw [if_pos htab, htab]
    exact .marked 't' (by decide)
  rw [if_neg htab]
  by_cases hline : r = '\n'
  · rw [if_pos hline, hline]
    exact .marked 'n' (by decide)
  rw [if_neg hline]
  by_cases hpage : r = '\x0c'
  · rw [if_pos hpage, hpage]
    exact .marked 'f' (by decide)
  rw [if_neg hpage]
  by_cases hcr : r = '\r'
  · rw [if_pos hcr, hcr]
    exact .marked 'r' (by decide)
  rw [if_neg hcr]
  by_cases hcontrol : r.toNat < 0x20
  · rw [if_pos hcontrol]
    exact .padded hcontrol
  rw [if_neg hcontrol]
  exact .plain hslash hquote hline

end DeclFront
