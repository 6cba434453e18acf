import DeclFront.Proofs.Scan.Refusal

/-!
# A scan never meets its bound

`Scanner.run` is given a bound on the number of its steps. Here it is shown to make no difference:
every bound that is large enough gives the same process. The argument is a measure on the states of
a scan, `Scanner.weight`, that each step lessens. A state that collects a run of runes is entered
with the first of them still unread, and only then does it read anything; `Scanner.Ready` says of a
state that it may be entered.

* `Scanner.Ready.step`: from a state that may be entered, a step leads to another, of less weight;
* `Scanner.drive_eq_of_le`: so two bounds that are at least the weight give one process;
* `Scanner.tokens_runFrom_of_next`, `Scanner.tokens_runFrom_of_stop`: the tokens of a scan are those
  of its first step and then those of the rest, without any mention of a bound.
-/

namespace DeclFront

/-! ### Reading only moves forward -/

namespace Cursor

variable {c : Cursor} {r : Char}

@[simp] theorem remaining_discard (c : Cursor) : c.discard.remaining = c.remaining := rfl

/-- A jump leads forward. -/
theorem remaining_jump_le (c : Cursor) (n : Nat) : (c.jump n).remaining ≤ c.remaining := by
  simp only [remaining, jump]
  omega

/-- To accept a rune is to read it, or to stay. -/
theorem remaining_accept_le (c : Cursor) (p : Char → Bool) :
    (c.accept p).2.remaining ≤ c.remaining := by
  unfold accept
  split
  · next r h =>
    split
    · exact Nat.le_of_lt (remaining_past_lt h)
    · exact Nat.le_refl _
  · exact Nat.le_refl _

/-- A rune that is accepted is read. -/
theorem remaining_lt_of_accept {p : Char → Bool} {c' : Cursor} (h : c.accept p = (true, c')) :
    c'.remaining < c.remaining := by
  unfold accept at h
  split at h
  · next r hhead =>
    split at h
    · cases h
      exact remaining_past_lt hhead
    · cases h
  · cases h

/-- One rune is passed over at most. -/
theorem remaining_skipOne_le (c : Cursor) (p : Char → Bool) :
    (c.skipOne p).remaining ≤ c.remaining :=
  remaining_accept_le c p

/-- A run is read rune by rune. -/
theorem remaining_skipFrom_le (p : Char → Bool) (count : Nat) (c : Cursor) :
    (skipFrom p count c).2.remaining ≤ c.remaining := by
  fun_induction skipFrom p count c with
  | case1 count c h => exact Nat.le_refl _
  | case2 count c r h hr ih => exact Nat.le_trans ih (Nat.le_of_lt (remaining_past_lt h))
  | case3 count c r h hr => exact Nat.le_refl _

theorem remaining_skip_le (c : Cursor) (p : Char → Bool) : (c.skip p).remaining ≤ c.remaining :=
  remaining_skipFrom_le p 0 c

/-- A run that has a first rune is not empty. -/
theorem remaining_skip_lt {p : Char → Bool} (h : c.head? = some r) (hr : p r = true) :
    (c.skip p).remaining < c.remaining := by
  -- the first rune is taken out of the run
  have hskip : c.skip p = (skipFrom p 1 (c.past r)).2 := by
    rw [skip, skipWhile, skipFrom]
    split
    · next hnone => rw [h] at hnone; cases hnone
    · next r' hsome =>
      obtain rfl : r = r' := Option.some.inj (h.symm.trans hsome)
      rw [if_pos hr]
  rw [hskip]
  exact Nat.lt_of_le_of_lt (remaining_skipFrom_le p 1 _) (remaining_past_lt h)

/-- Behind each rune that is no closer the search goes on, and an escaped rune is passed with its
backslash. -/
theorem remaining_seek_le (form : Delimited) (c : Cursor) :
    (c.seek form).2.remaining ≤ c.remaining := by
  fun_induction seek form c with
  | case1 c h => exact Nat.le_refl _
  | case2 c hclosed h => exact Nat.le_refl _
  | case3 c hclosed r h hone htwo hescape ih => exact Nat.le_trans ih (Nat.le_of_lt htwo)
  | case4 c hclosed r h hone htwo hescape ih => exact Nat.le_trans ih (Nat.le_of_lt hone)

theorem remaining_le_of_seek {form : Delimited} {found : Bool} {c' : Cursor}
    (h : c.seek form = (found, c')) : c'.remaining ≤ c.remaining := by
  have hle := remaining_seek_le form c
  rwa [h] at hle

/-- A character constant is read in the same way, and ends at its quote, at a line end or with the
runes. -/
theorem remaining_readChar_le (c : Cursor) : c.readChar.2.remaining ≤ c.remaining := by
  fun_induction readChar c with
  | case1 c h => exact Nat.le_refl _
  | case2 c r h hone hescape h' => exact Nat.le_of_lt hone
  | case3 c r h hone hescape q h' htwo hline => exact Nat.le_of_lt htwo
  | case4 c r h hone hescape q h' htwo hline ih => exact Nat.le_trans ih (Nat.le_of_lt htwo)
  | case5 c r h hone hescape hline => exact Nat.le_of_lt hone
  | case6 c r h hone hescape hline hquote => exact Nat.le_of_lt hone
  | case7 c r h hone hescape hline hquote ih => exact Nat.le_trans ih (Nat.le_of_lt hone)

theorem remaining_le_of_readChar {found : Bool} {c' : Cursor} (h : c.readChar = (found, c')) :
    c'.remaining ≤ c.remaining := by
  have hle := remaining_readChar_le c
  rwa [h] at hle

/-- The notation of a number takes two runes at most, a zero and its marker. -/
theorem remaining_readRadix_le (c : Cursor) : c.readRadix.2.remaining ≤ c.remaining := by
  have haccept := remaining_accept_le c (· == '0')
  unfold readRadix
  split
  · next c' h => rwa [h] at haccept
  · next c' h =>
    rw [h] at haccept
    split
    · exact haccept
    · next r hr =>
      split
      · exact Nat.le_trans (Nat.le_of_lt (remaining_past_lt hr)) haccept
      · exact haccept

/-- A fraction is a point and a run. -/
theorem remaining_readFraction_le (c : Cursor) (radix : Radix) :
    (c.readFraction radix).remaining ≤ c.remaining := by
  have haccept := remaining_accept_le c (· == '.')
  unfold readFraction
  split
  · next c' h => rwa [h] at haccept
  · next c' h =>
    rw [h] at haccept
    exact Nat.le_trans (remaining_skip_le _ _) haccept

/-- An exponent is a letter, a sign and a run, each read forward. -/
theorem remaining_readExponent_le (c : Cursor) : c.readExponent.remaining ≤ c.remaining := by
  have haccept := remaining_accept_le c fun r => r == 'e' || r == 'E'
  unfold readExponent
  split
  · next c' h => rwa [h] at haccept
  · next c' h =>
    rw [h] at haccept
    calc ((c'.skipOne isSign).skip isDecimal).remaining
        ≤ (c'.skipOne isSign).remaining := remaining_skip_le _ _
      _ ≤ c'.remaining := remaining_skipOne_le _ _
      _ ≤ c.remaining := haccept

/-- What follows the leading digits of a number is read forward. -/
theorem remaining_readMagnitude_le_skip (c : Cursor) :
    c.readMagnitude.remaining ≤ (c.readRadix.2.skip c.readRadix.1.isDigit).remaining :=
  calc c.readMagnitude.remaining
      ≤ (((c.readRadix.2.skip c.readRadix.1.isDigit).readFraction
          c.readRadix.1).readExponent).remaining := remaining_skipOne_le _ _
    _ ≤ ((c.readRadix.2.skip c.readRadix.1.isDigit).readFraction c.readRadix.1).remaining :=
        remaining_readExponent_le _
    _ ≤ (c.readRadix.2.skip c.readRadix.1.isDigit).remaining := remaining_readFraction_le _ _

/-- So a magnitude, which is made of these, is read forward. -/
theorem remaining_readMagnitude_le (c : Cursor) : c.readMagnitude.remaining ≤ c.remaining :=
  calc c.readMagnitude.remaining
      ≤ (c.readRadix.2.skip c.readRadix.1.isDigit).remaining := remaining_readMagnitude_le_skip c
    _ ≤ c.readRadix.2.remaining := remaining_skip_le _ _
    _ ≤ c.remaining := remaining_readRadix_le c

/-- A rune that is asked for is read, -/
theorem accept_of_head {p : Char → Bool} (h : c.head? = some r) (hr : p r = true) :
    c.accept p = (true, c.past r) := by
  rw [accept, h]
  exact if_pos hr

/-- and any other rune is left. -/
theorem accept_of_not_head {p : Char → Bool} (h : c.head? = some r) (hr : p r = false) :
    c.accept p = (false, c.settle) := by
  rw [accept, h]
  exact if_neg (by rw [hr]; exact Bool.false_ne_true)

/-- A magnitude that has a first digit is not empty. -/
theorem remaining_readMagnitude_lt (h : c.head? = some r) (hr : isDecimal r = true) :
    c.readMagnitude.remaining < c.remaining := by
  by_cases hzero : r = '0'
  · -- A leading zero is read for the notation it may announce.
    have hradix : c.readRadix.2.remaining < c.remaining := by
      have haccept : c.accept (· == '0') = (true, c.past r) :=
        accept_of_head h (beq_iff_eq.2 hzero)
      unfold readRadix
      rw [haccept]
      dsimp only
      split
      · exact remaining_past_lt h
      · next q hq =>
        split
        · exact Nat.lt_trans (remaining_past_lt hq) (remaining_past_lt h)
        · exact remaining_past_lt h
    calc c.readMagnitude.remaining
        ≤ (c.readRadix.2.skip c.readRadix.1.isDigit).remaining := remaining_readMagnitude_le_skip c
      _ ≤ c.readRadix.2.remaining := remaining_skip_le _ _
      _ < c.remaining := hradix
  · -- Any other digit is the first of a run of decimal digits.
    have hradix : c.readRadix = (.decimal, c.settle) := by
      have haccept : c.accept (· == '0') = (false, c.settle) :=
        accept_of_not_head h (beq_eq_false_iff_ne.2 hzero)
      rw [readRadix, haccept]
    have hmagnitude := remaining_readMagnitude_le_skip c
    rw [hradix] at hmagnitude
    have hhead : c.settle.head? = some r := h
    exact Nat.lt_of_le_of_lt hmagnitude (remaining_skip_lt hhead hr)

end Cursor

/-! ### Every step lessens the weight -/

/-- What a state adds to the weight of a scan: most where a rune has just been read, and nothing
where the next rune is bound to be. -/
def ScanState.slack : ScanState → Nat
  | neutral => 1
  | blanks | lineEnds | number | word => 0
  | string | quote | char | lineComment | blockComment => 2

namespace Scanner

/-- How many steps a scan can still take from a state, at most. -/
def weight (s : Scanner) (state : ScanState) : Nat :=
  2 * s.cursor.remaining + state.slack

/-- The state may be entered: one that adds no weight is entered at the first rune of its run. -/
def Ready (s : Scanner) (state : ScanState) : Prop :=
  state.slack = 0 → ∃ r, s.cursor.head? = some r ∧ begins state r = true

/-- Between tokens anything may come. -/
theorem ready_neutral (s : Scanner) : s.Ready .neutral := by
  intro h
  cases h

theorem ready_of_begins {s : Scanner} {r : Char} {state : ScanState}
    (hhead : s.cursor.head? = some r) (hr : begins state r = true) : s.Ready state :=
  fun _ => ⟨r, hhead, hr⟩

/-- Only states that add no weight collect a run. -/
theorem slack_of_begins {r : Char} {state : ScanState} (h : begins state r = true) :
    state.slack = 0 := by
  cases state with
  | blanks | lineEnds | number | word => rfl
  | _ => cases h

/-- Wherever the step leads while its tokens are taken, that state may be entered, and it weighs
less than `n`. -/
def Descends (step : ScanStep) (n : Nat) : Prop :=
  ∀ next s', step.result = (some next, s') → s'.Ready next ∧ s'.weight next < n

section Descends

variable {s : Scanner} {c : Cursor} {n : Nat}

/-- A step without a token descends if its state may be entered and weighs less, -/
theorem descends_goto {next : ScanState} (hready : (s.moveTo c).Ready next)
    (hlt : 2 * c.remaining + next.slack < n) : Descends (s.goto c next) n := by
  intro next' s' h
  cases h
  exact ⟨hready, hlt⟩

/-- and one with a token if it has read something. -/
theorem descends_emit {kind : TokenKind} (hlt : 2 * c.remaining + 1 < n) :
    Descends (s.emit c kind) n := by
  intro next s' h
  cases h
  exact ⟨ready_neutral _, hlt⟩

/-- A step that leads nowhere has nothing to show. -/
theorem descends_of_none {step : ScanStep} (h : step.result.1 = none) : Descends step n := by
  intro next s' hnext
  rw [hnext] at h
  cases h

/-- White space has a first rune, which is read. -/
theorem Ready.skip_lt {state : ScanState} {kind : TokenKind} {p : Char → Bool}
    (h : s.Ready state) (collects : Collects state kind p) :
    2 * (s.cursor.skip p).remaining + 1 < s.weight state := by
  have hslack : state.slack = 0 := by cases collects <;> rfl
  have hbegins : begins state = p := by cases collects <;> rfl
  obtain ⟨r, hhead, hr⟩ := h hslack
  rw [hbegins] at hr
  have hlt := Cursor.remaining_skip_lt hhead hr
  rw [weight, hslack]
  omega

/-- A word is entered at a word rune that is no digit. -/
theorem Ready.exists_word (h : s.Ready .word) :
    ∃ r, s.cursor.head? = some r ∧ isWordRune r = true ∧ isDecimal r = false := by
  obtain ⟨r, hhead, hr⟩ := h rfl
  rw [begins, Bool.and_eq_true, Bool.not_eq_true'] at hr
  exact ⟨r, hhead, hr.1, hr.2⟩

/-- A sign or a first digit is read, and after it reading only moves forward. -/
theorem Ready.magnitude_lt {signed : Bool} (h : s.Ready .number)
    (haccept : s.cursor.accept Cursor.isSign = (signed, c)) :
    c.readMagnitude.remaining < s.cursor.remaining := by
  obtain ⟨r, hhead, hr⟩ := h rfl
  -- the first rune is a sign, or a digit of the magnitude itself
  by_cases hs : Cursor.isSign r = true
  · rw [Cursor.accept_of_head hhead hs, Prod.mk.injEq] at haccept
    rw [← haccept.2]
    exact Nat.lt_of_le_of_lt (Cursor.remaining_readMagnitude_le _) (Cursor.remaining_past_lt hhead)
  · rw [Bool.not_eq_true] at hs
    rw [begins, hs, Bool.false_or] at hr
    rw [Cursor.accept_of_not_head hhead hs, Prod.mk.injEq] at haccept
    rw [← haccept.2]
    have hsettled : s.cursor.settle.head? = some r := hhead
    exact Cursor.remaining_readMagnitude_lt hsettled hr

/-- Inside a delimited piece one rune has been read, so that it may end at once. -/
theorem weight_of_encloses {state : ScanState} {form : Delimited} (h : Encloses state form) :
    s.weight state = 2 * s.cursor.remaining + 2 := by
  cases h <;> rfl

/-- **A step lessens the weight**, and leads only to a state that may be entered. -/
theorem Ready.step {state : ScanState} (h : s.Ready state) :
    Descends (s.step state) (s.weight state) := by
  have hdoes := does_step s state
  generalize s.step state = step at hdoes ⊢
  cases hdoes with
  | finish | unclosed | stray | unknown | cut | cutEmpty | badChar | badNumber | badWord =>
    exact descends_of_none rfl
  -- A run is entered before its first rune is read, so here only the slack gets less.
  | beginRun hhead hr =>
    refine descends_goto (ready_of_begins hhead hr) ?_
    rw [slack_of_begins hr]
    exact Nat.lt_succ_self _
  -- Here one rune is read, which pays for the slack of the state that follows.
  | @beginQuoted r next hhead mark =>
    have hpast := Cursor.remaining_past_lt hhead
    cases mark with
    | string | quote =>
      refine descends_goto (fun hslack => by cases hslack) ?_
      rw [Cursor.remaining_discard, weight]
      simp only [ScanState.slack]
      omega
  | beginChar hhead =>
    have hpast := Cursor.remaining_past_lt hhead
    refine descends_goto (fun hslack => by cases hslack) ?_
    simp only [weight, ScanState.slack]
    omega
  | beginComment hhead hmark mark =>
    have hpast := Cursor.remaining_past_lt hhead
    have hpast' := Cursor.remaining_past_lt hmark
    cases mark with
    | line | block =>
      refine descends_goto (fun hslack => by cases hslack) ?_
      simp only [weight, ScanState.slack]
      omega
  | slash hhead | opening hhead | closing hhead | literal hhead =>
    have hpast := Cursor.remaining_past_lt hhead
    refine descends_emit ?_
    simp only [weight, ScanState.slack]
    omega
  | report collects => exact descends_emit (h.skip_lt collects)
  | pass collects => exact descends_goto (ready_neutral _) (h.skip_lt collects)
  -- a piece that is found is left behind its closer, however long it is
  | @closeKept _ form c encloses hseek =>
    have hle := Cursor.remaining_le_of_seek hseek
    have hjump := Cursor.remaining_jump_le c (byteLength form.closer)
    refine descends_emit ?_
    rw [weight_of_encloses encloses]
    omega
  | @closeDropped _ form c encloses hseek =>
    have hle := Cursor.remaining_le_of_seek hseek
    have hjump := Cursor.remaining_jump_le c.discard (byteLength form.closer)
    rw [weight_of_encloses encloses]
    intro next s' hnext
    cases hnext
    refine ⟨ready_neutral _, ?_⟩
    -- the closer is read after its token was sent, and left behind
    show 2 * (c.discard.jump (byteLength form.closer)).discard.remaining + 1 < _
    rw [Cursor.remaining_discard] at hjump ⊢
    omega
  | char hread =>
    have hle := Cursor.remaining_le_of_readChar hread
    refine descends_emit ?_
    simp only [weight, ScanState.slack]
    omega
  | sign haccept =>
    have hlt := Cursor.remaining_lt_of_accept haccept
    refine descends_emit ?_
    simp only [weight, ScanState.slack]
    omega
  | number haccept =>
    have hlt := h.magnitude_lt haccept
    refine descends_emit ?_
    simp only [weight, ScanState.slack]
    omega
  -- a word and a number have a first rune, which is what `Ready` says
  | word =>
    obtain ⟨r, hhead, hr, -⟩ := h.exists_word
    have hlt : (s.cursor.skip continuesWord).remaining < s.cursor.remaining := by
      refine Cursor.remaining_skip_lt hhead ?_
      rw [continuesWord, hr, Bool.true_or]
    refine descends_emit ?_
    simp only [weight, ScanState.slack]
    omega

/-- A state that may be entered has a step before it. -/
theorem Ready.weight_pos {state : ScanState} (h : s.Ready state) : 0 < s.weight state := by
  have hsome : ∀ r, s.cursor.head? = some r → 0 < 2 * s.cursor.remaining := by
    intro r hr
    have hpast := Cursor.remaining_past_lt hr
    omega
  cases state with
  | blanks | lineEnds | number | word =>
    obtain ⟨r, hhead, -⟩ := h rfl
    exact hsome r hhead
  | _ => exact Nat.succ_pos _

end Descends

/-! ### The bound makes no difference -/

variable {s s' : Scanner} {state next : ScanState}

/-- **A scan never meets its bound.** All bounds that are large enough give one process. -/
theorem drive_eq_of_le {m n : Nat} (hready : s.Ready state) (hm : s.weight state ≤ m)
    (hn : s.weight state ≤ n) : drive m s (some state) = drive n s (some state) := by
  have hpos := hready.weight_pos
  -- by induction on one bound; the other is opened along with it, since neither is zero
  induction m generalizing n s state with
  | zero => omega
  | succ m ih =>
    obtain ⟨n, rfl⟩ : ∃ k, n = k + 1 := ⟨n - 1, by omega⟩
    refine (step_haltsWhenRefused s state).bind_congr ?_ ?_
    -- a step that was refused leads nowhere, and then no bound is looked at
    · rintro ⟨next, s'⟩ hnext
      obtain rfl : next = none := hnext
      show drive m s' none = drive n s' none
      rw [drive_none, drive_none]
    · cases hresult : (s.step state).result with
      | mk next s' =>
        cases next with
        | none =>
          show drive m s' none = drive n s' none
          rw [drive_none, drive_none]
        | some next =>
          obtain ⟨hready', hlt⟩ := hready.step next s' hresult
          exact ih hready' (by omega) (by omega) hready'.weight_pos

/-- Scan on from a state until the scan halts. -/
def runFrom (s : Scanner) (state : ScanState) : Emitter Scanner :=
  drive (s.weight state) s (some state)

/-- A whole scan is one that begins between tokens. -/
theorem run_eq_runFrom (s : Scanner) : s.run = s.runFrom .neutral := rfl

/-- A scan from a state that may be entered takes at least one step. -/
theorem Ready.exists_tokens_runFrom (h : s.Ready state) :
    ∃ n, s.weight state = n + 1 ∧ (s.runFrom state).tokens = (s.step state).tokens ++
      (drive n (s.step state).result.2 (s.step state).result.1).tokens := by
  have hpos := h.weight_pos
  obtain ⟨n, hn⟩ : ∃ n, s.weight state = n + 1 := ⟨s.weight state - 1, by omega⟩
  refine ⟨n, hn, ?_⟩
  rw [runFrom, hn, tokens_drive_succ]

/-- Where a step leads on, its tokens come first, and the rest is a scan from there. -/
theorem tokens_runFrom_of_next (hready : s.Ready state)
    (h : (s.step state).result = (some next, s')) :
    (s.runFrom state).tokens = (s.step state).tokens ++ (s'.runFrom next).tokens := by
  obtain ⟨hready', hlt⟩ := hready.step next s' h
  obtain ⟨n, hn, htokens⟩ := hready.exists_tokens_runFrom
  -- what is left of the bound is enough for the weight of `next`
  have hdrive : drive n s' (some next) = s'.runFrom next :=
    drive_eq_of_le hready' (by omega) (Nat.le_refl _)
  rw [htokens, h, hdrive]

/-- Where a step leads nowhere, its tokens are all there are. -/
theorem tokens_runFrom_of_stop (hready : s.Ready state) (h : (s.step state).result.1 = none) :
    (s.runFrom state).tokens = (s.step state).tokens := by
  obtain ⟨n, -, htokens⟩ := hready.exists_tokens_runFrom
  rw [htokens, h, drive_none, Emitter.tokens_halt, List.append_nil]

end Scanner

end DeclFront
