import DeclFront.Proofs.Scan.Ending

/-!
# Brackets in balance

A scanner counts the brackets of each pair that are open, refuses one that closes nothing, and
refuses to end while one is open. What it counts can be read off its tokens: `tallyAll` counts the
brackets of a pair along a list of tokens, and is undefined where one closes nothing.

Every step that leads on counts as its tokens do (`Kept.tallies`), so the tokens of a scan that ends
without a failure and without an end marker are in balance (`tallyAll_lex`). The two pairs are
counted apart: nothing says that they nest in one another.
-/

namespace DeclFront

/-! ### Counting along tokens -/

/-- Whether the tokens of a kind are brackets. -/
def TokenKind.isBracket : TokenKind → Bool
  | bracketOpen | bracketClose => true
  | _ => false

/-- No word is a bracket. -/
theorem TokenKind.isBracket_ofWord (word : String) : (ofWord word).isBracket = false :=
  ofWord_induction (P := (·.isBracket = false)) (fun _ => rfl) rfl rfl word

/-- How many brackets of the pair are open after the token, if `n` are before it; none if the token
closes one and none is open. -/
def Token.tally (b : Bracket) (n : Nat) (t : Token) : Option Nat :=
  if t.opens b then some (n + 1)
  else if t.closes b then
    match n with
    | 0 => none
    | n + 1 => some n
  else some n

/-- How many brackets of the pair are open after the tokens, if `n` are before them. -/
def tallyAll (b : Bracket) (n : Nat) (ts : List Token) : Option Nat :=
  ts.foldlM (Token.tally b) n

section Tally

variable {b : Bracket} {t : Token}

theorem Token.tally_of_closes (h : t.closes b = true) (n : Nat) : t.tally b (n + 1) = some n := by
  unfold tally
  rw [opens_eq_false_of_closes h, if_neg Bool.false_ne_true, if_pos h]

/-- Only a bracket of the pair counts. -/
theorem Token.tally_of_other (hopens : t.opens b = false) (hcloses : t.closes b = false) (n : Nat) :
    t.tally b n = some n := by
  unfold tally
  rw [hopens, hcloses, if_neg Bool.false_ne_true, if_neg Bool.false_ne_true]

/-- A token that is no bracket does not count. -/
theorem Token.tally_of_kind (h : t.kind.isBracket = false) (b : Bracket) (n : Nat) :
    t.tally b n = some n := by
  have hopen : t.kind ≠ .bracketOpen := by
    intro hkind
    rw [hkind] at h
    cases h
  have hclose : t.kind ≠ .bracketClose := by
    intro hkind
    rw [hkind] at h
    cases h
  refine tally_of_other ?_ ?_ n
  · rw [opens, beq_eq_false_iff_ne.2 hopen, Bool.false_and]
  · rw [closes, beq_eq_false_iff_ne.2 hclose, Bool.false_and]

theorem tallyAll_cons (b : Bracket) (n : Nat) (t : Token) (ts : List Token) :
    tallyAll b n (t :: ts) = (t.tally b n).bind fun m => tallyAll b m ts :=
  List.foldlM_cons

theorem tallyAll_singleton (b : Bracket) (n : Nat) (t : Token) :
    tallyAll b n [t] = t.tally b n := by
  rw [tallyAll_cons]
  exact Option.bind_fun_some _

/-- Tokens are counted one after another. -/
theorem tallyAll_append (b : Bracket) (n : Nat) (ts us : List Token) :
    tallyAll b n (ts ++ us) = (tallyAll b n ts).bind fun m => tallyAll b m us :=
  List.foldlM_append

/-- Tokens that do not count can be left out. -/
theorem tallyAll_filter {p : Token → Bool} (b : Bracket)
    (hp : ∀ t m, p t = false → t.tally b m = some m) (n : Nat) (ts : List Token) :
    tallyAll b n (ts.filter p) = tallyAll b n ts := by
  induction ts generalizing n with
  | nil => rfl
  | cons t ts ih =>
    cases ht : p t with
    | true =>
      rw [List.filter_cons_of_pos ht, tallyAll_cons, tallyAll_cons]
      simp only [ih]
    | false =>
      rw [List.filter_cons_of_neg (by rw [ht]; exact Bool.false_ne_true), tallyAll_cons, hp t n ht,
        ih]
      rfl

/-- What counting along tokens comes to. -/
theorem countP_of_tallyAll {n m : Nat} {ts : List Token}
    (h : tallyAll b n ts = some m) :
    n + ts.countP (·.opens b) = m + ts.countP (·.closes b) := by
  induction ts generalizing n with
  | nil =>
    obtain rfl := Option.some.inj h
    rfl
  | cons t ts ih =>
    rw [tallyAll_cons, Option.bind_eq_some_iff] at h
    obtain ⟨k, hfirst, hrest⟩ := h
    have htail := ih hrest
    rw [List.countP_cons, List.countP_cons]
    unfold Token.tally at hfirst
    -- the first token opens a bracket, closes one that is open, or does not count
    split_ifs at hfirst with hopens hcloses
    · obtain rfl := Option.some.inj hfirst
      have hcloses := Token.closes_eq_false_of_opens hopens b
      rw [if_pos hopens, hcloses, if_neg Bool.false_ne_true]
      omega
    · cases n with
      | zero => cases hfirst
      | succ n =>
        obtain rfl := Option.some.inj hfirst
        rw [if_neg hopens, if_pos hcloses]
        omega
    · obtain rfl := Option.some.inj hfirst
      rw [if_neg hopens, if_neg hcloses]
      omega

/-- White space is no bracket. -/
theorem TokenKind.isBracket_of_isTrivia {kind : TokenKind} (h : kind.isTrivia = true) :
    kind.isBracket = false := by
  cases kind with
  | space | endOfLine => rfl
  | _ => cases h

end Tally

/-! ### Counting along a scan -/

namespace Scanner

/-- Wherever the step leads, the scanner has counted what its tokens tell. -/
def Tallies (s : Scanner) (step : ScanStep) : Prop :=
  ∀ next s', step.result = (some next, s') →
    ∀ b, tallyAll b (s.depth b) step.tokens = some (s'.depth b)

section Tallies

variable {source : String} {rendered : List Char} {s s' : Scanner} {state state' : ScanState}
  {c : Cursor} {kind : TokenKind} {ts : List Token}

/-- A step without a token leaves the counts as they are. -/
theorem tallies_goto (next : ScanState) : Tallies s (s.goto c next) := by
  intro next' s' h b
  obtain ⟨-, rfl⟩ := Prod.mk.inj h
  rw [depth_moveTo]
  rfl

/-- Nothing is asked of a step with which the scan ends. -/
theorem tallies_of_none {step : ScanStep} (h : step.result.1 = none) : Tallies s step := by
  intro next s' hnext
  rw [hnext] at h
  cases h

/-- A token that is no bracket leaves the counts as they are. -/
theorem tallies_emitThen (hkind : kind.isBracket = false) {after : Scanner → ScanStep}
    (hafter : Tallies (s.moveTo c.discard) (after (s.moveTo c.discard))) :
    Tallies s (s.emitThen c kind after) := by
  intro next s' h b
  have htally : Token.tally b (s.depth b) ⟨kind, c.pending, c.span⟩ = some (s.depth b) :=
    Token.tally_of_kind hkind b _
  rw [tokens_emitThen, tallyAll_cons, htally]
  have hrest := hafter next s' h b
  rwa [depth_moveTo] at hrest

/-- So does a step with one such token. -/
theorem tallies_emit (hkind : kind.isBracket = false) : Tallies s (s.emit c kind) := by
  refine tallies_emitThen hkind fun next s' h b => ?_
  obtain ⟨-, rfl⟩ := Prod.mk.inj h
  rfl

/-- A bracket changes the count of its pair as its token tells. -/
theorem tallies_bracket {b : Bracket} {n : Nat}
    (htally : ∀ b', Token.tally b' (s.depth b') ⟨kind, c.pending, c.span⟩ =
      some (Function.update s.depth b n b')) :
    Tallies s ((s.setDepth b n).emit c kind) := by
  intro next s' h b'
  obtain ⟨-, rfl⟩ := Prod.mk.inj h
  rw [tokens_emit, tallyAll_singleton, htally, depth_moveTo, depth_setDepth]

/-- An opening bracket raises the count of its pair alone. -/
theorem tally_update_of_opening (depths : Bracket → Nat) (b b' : Bracket) (span : Span) :
    Token.tally b' (depths b') ⟨.bracketOpen, b.openText, span⟩ =
      some (Function.update depths b (depths b + 1) b') := by
  cases b <;> cases b' <;> rfl

/-- A closing one lowers it. -/
theorem tally_update_of_closing {depths : Bracket → Nat} {b : Bracket} {n : Nat}
    (h : depths b = n + 1) (b' : Bracket) (span : Span) :
    Token.tally b' (depths b') ⟨.bracketClose, b.closeText, span⟩ =
      some (Function.update depths b n b') := by
  have hcloses : Token.closes ⟨.bracketClose, b.closeText, span⟩ b = true := by
    rw [Token.closes, Bool.and_eq_true]
    exact ⟨rfl, beq_self_eq_true _⟩
  -- for the other pair, the bracket is a token like any other
  by_cases hb : b' = b
  · subst hb
    rw [h, Function.update_self]
    exact Token.tally_of_closes hcloses n
  · rw [Function.update_of_ne hb]
    refine Token.tally_of_other (Token.opens_eq_false_of_closes hcloses b') ?_ _
    rw [Token.closes_eq hcloses, decide_eq_false hb]

/-- Between tokens a single rune is the whole text of a token made of it. -/
theorem Kept.pending_past (h : Kept source rendered s .neutral) {r : Char}
    (hhead : s.cursor.head? = some r) : (s.cursor.past r).pending = String.singleton r := by
  obtain ⟨ahead, hc⟩ := h.between
  -- nothing was collected, so the rune is all that is pending
  obtain ⟨rest, rfl⟩ := hc.exists_cons hhead
  rw [hc.past.pending_eq]
  exact String.toList_inj.1 rfl

/-- **One step counts as its tokens do.** -/
theorem Kept.tallies (h : Kept source rendered s state) : Tallies s (s.step state) := by
  have hdoes := does_step s state
  generalize s.step state = step at hdoes ⊢
  cases hdoes with
  -- the scan is over
  | finish | unclosed | stray | unknown | cut | cutEmpty | badChar | badNumber | badWord =>
    exact tallies_of_none rfl
  -- no token was found
  | beginRun | beginQuoted | beginChar | beginComment | pass => exact tallies_goto _
  | slash | literal | char | sign | number => exact tallies_emit rfl
  -- the two steps that count
  | @opening b hhead =>
    refine tallies_bracket fun b' => ?_
    rw [h.pending_past hhead]
    exact tally_update_of_opening s.depth b b' _
  | @closing b n hhead hdepth =>
    refine tallies_bracket fun b' => ?_
    rw [h.pending_past hhead]
    exact tally_update_of_closing hdepth b' _
  -- what these find is of the kind that the state says, and never a bracket
  | report collects => cases collects <;> exact tallies_emit rfl
  | closeKept encloses => cases encloses <;> exact tallies_emit rfl
  | closeDropped encloses =>
    cases encloses <;> exact tallies_emitThen rfl (tallies_goto _)
  | word => exact tallies_emit (TokenKind.isBracket_ofWord _)

/-- So do all steps that lead on. -/
theorem Kept.tallyAll_of_advances (h : Kept source rendered s state)
    (hadv : Advances s state ts s' state') (b : Bracket) :
    tallyAll b (s.depth b) ts = some (s'.depth b) := by
  induction hadv generalizing rendered with
  | refl => rfl
  | next hstep rest ih =>
    -- the first step counts as its tokens do, and what is kept lets the others do so too
    have hkeeps := h.step
    rw [Keeps, hstep] at hkeeps
    rw [tallyAll_append, h.tallies _ _ hstep b]
    exact ih hkeeps.2

/-- A scan ends without a token only where no bracket is open. -/
theorem depth_eq_zero_of_stop (hstop : (s.step state).result.1 = none)
    (htokens : (s.step state).tokens = []) (b : Bracket) : s.depth b = 0 := by
  have hdoes := does_step s state
  generalize s.step state = step at hdoes hstop htokens
  cases hdoes with
  | finish _ hclosed =>
    rw [not_or, not_not, not_not] at hclosed
    cases b with
    | paren => exact hclosed.1
    | brace => exact hclosed.2
  | unclosed | stray | unknown | cut | cutEmpty | badChar | badNumber | badWord => cases htokens
  -- every other step leads on
  | _ => cases hstop

end Tallies

end Scanner

/-- **The brackets of a scan are in balance**, if it ends without a failure and without an end
marker. -/
theorem tallyAll_lex {source : String} (hclean : ∀ t ∈ lex source, t.kind.isFinal = false)
    (b : Bracket) : tallyAll b 0 (lex source) = some 0 := by
  have hstart : (Scanner.ofSource source ⟨true⟩).depth b = 0 := by cases b <;> rfl
  obtain ⟨ts, s, state, hadv, hstop, hlast, hlex⟩ := exists_advances_of_clean hclean
  have htally := (Scanner.kept_ofSource source).tallyAll_of_advances hadv b
  rw [hstart, Scanner.depth_eq_zero_of_stop hstop hlast b] at htally
  -- white space was left out of the listing, and is no bracket
  rw [hlex, tallyAll_filter b fun t m ht => ?_]
  · exact htally
  · rw [Bool.not_eq_false'] at ht
    exact Token.tally_of_kind (TokenKind.isBracket_of_isTrivia ht) b m

end DeclFront
