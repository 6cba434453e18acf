import DeclFront.Proofs.Scan.Context

/-!
# Scans with and without white space

Whether white space is reported is decided by an option that a scanner carries along, and that only
the two states for white space look at. A scan that reports it and one that does not go through the
same states: the *quiet* scanner is the other one with its option turned off (`quiet`), and it
stays so, step after step.

* `Mutes` says this of one step: the quiet one emits the tokens of the other less the white space,
  and leads to the same state;
* `lex_eq_filter` is what it comes to over a whole scan, whatever the option was.
-/

namespace DeclFront

/-- What holds of keywords, truth values and identifiers holds of the kind of every word. -/
theorem TokenKind.ofWord_induction {P : TokenKind → Prop}
    (keyword : ∀ category, P (.keyword category))
    (bool : P .bool) (identifier : P .identifier) (word : String) : P (ofWord word) := by
  unfold ofWord
  split
  · exact keyword _
  · split_ifs
    · exact bool
    · exact identifier

/-- No word is white space. -/
theorem TokenKind.isTrivia_ofWord (word : String) : (ofWord word).isTrivia = false :=
  ofWord_induction (P := (·.isTrivia = false)) (fun _ => rfl) rfl rfl word

namespace Scanner

/-- The quiet scanner: the same, but white space is not reported. -/
def quiet (s : Scanner) : Scanner :=
  { s with options := ⟨false⟩ }

/-- The quiet scanner reads on at the same place. -/
theorem cursor_quiet (s : Scanner) : s.quiet.cursor = s.cursor := rfl

/-- It counts the same brackets. -/
theorem depth_quiet (s : Scanner) (b : Bracket) : s.quiet.depth b = s.depth b := by
  cases b <;> rfl

/-- It counts them in the same way. -/
theorem setDepth_quiet (s : Scanner) (b : Bracket) (n : Nat) :
    s.quiet.setDepth b n = (s.setDepth b n).quiet := by
  cases b <;> rfl

/-! ### One step -/

/-- The step `soft` emits what `step` emits, less the white space, and leads to the same state with
a quiet scanner. -/
structure Mutes (step soft : ScanStep) : Prop where
  tokens_eq : soft.tokens = step.tokens.filter (!·.kind.isTrivia)
  result_eq : soft.result = (step.result.1, step.result.2.quiet)

section Mutes

variable (s : Scanner) (c : Cursor) {kind : TokenKind}

/-- Going on is the same for both. -/
theorem mutes_goto (next : ScanState) : Mutes (s.goto c next) (s.quiet.goto c next) :=
  ⟨rfl, rfl⟩

/-- So is a failure. -/
theorem mutes_fail (message : String) (span : Span) :
    Mutes (s.fail c message span) (s.quiet.fail c message span) :=
  ⟨rfl, rfl⟩

/-- So is an end marker. -/
theorem mutes_emitEnd : Mutes (s.emitEnd c) (s.quiet.emitEnd c) :=
  ⟨rfl, rfl⟩

/-- A token that is no white space is emitted by both. -/
theorem mutes_emitThen (hkind : kind.isTrivia = false) {after : Scanner → ScanStep}
    (hafter : Mutes (after (s.moveTo c.discard)) (after (s.quiet.moveTo c.discard))) :
    Mutes (s.emitThen c kind after) (s.quiet.emitThen c kind after) := by
  refine ⟨?_, hafter.result_eq⟩
  rw [tokens_emitThen, tokens_emitThen, hafter.tokens_eq, List.filter_cons_of_pos]
  rw [hkind]
  rfl

/-- So is a piece that is no white space. -/
theorem mutes_emit (hkind : kind.isTrivia = false) : Mutes (s.emit c kind) (s.quiet.emit c kind) :=
  mutes_emitThen s c hkind ⟨rfl, rfl⟩

/-- Of white space the quiet scanner emits nothing, but it too leaves it behind. -/
theorem mutes_scanTrivia {p : Char → Bool} (hkind : kind.isTrivia = true) :
    Mutes (s.scanTrivia kind p) (s.quiet.scanTrivia kind p) := by
  have hquiet : s.quiet.scanTrivia kind p = s.quiet.goto (s.cursor.skip p).discard .neutral := rfl
  rw [hquiet, scanTrivia]
  split_ifs with hkeeps
  · refine ⟨?_, rfl⟩
    -- the one token of the other is taken out
    rw [tokens_emit, tokens_goto, List.filter_cons_of_neg, List.filter_nil]
    rw [hkind]
    exact Bool.false_ne_true
  · exact mutes_goto s _ .neutral

/-- Delimited pieces are no white space. -/
theorem mutes_scanDelimited {form : Delimited} (hkind : form.kind.isTrivia = false) :
    Mutes (s.scanDelimited form) (s.quiet.scanDelimited form) := by
  rw [scanDelimited, scanDelimited, cursor_quiet]
  -- both look for the closer from the same place
  rcases s.cursor.seek form with ⟨found, c⟩
  cases found with
  | true =>
    dsimp only
    split_ifs with hkeeps
    · exact mutes_emit s _ hkind
    · exact mutes_emitThen s c hkind (mutes_goto ..)
  | false =>
    dsimp only
    split_ifs with hpending
    · exact mutes_emitThen s c hkind (mutes_emitEnd ..)
    · exact mutes_emitEnd s c

/-- Character constants are none. -/
theorem mutes_scanChar : Mutes s.scanChar s.quiet.scanChar := by
  rw [scanChar, scanChar, cursor_quiet]
  rcases s.cursor.readChar with ⟨closed, c⟩
  cases closed with
  | true => exact mutes_emit s c rfl
  | false => exact mutes_fail s c _ _

/-- Numbers and signs are none. -/
theorem mutes_scanNumber : Mutes s.scanNumber s.quiet.scanNumber := by
  rw [scanNumber, scanNumber, cursor_quiet]
  rcases s.cursor.accept Cursor.isSign with ⟨signed, c⟩
  dsimp only
  split_ifs with hsign
  · exact mutes_emit s c rfl
  · cases c.readMagnitude.head? with
    | none => exact mutes_emit s _ rfl
    | some r =>
      dsimp only
      split_ifs with hr
      · exact mutes_fail s _ _ _
      · exact mutes_emit s _ rfl

/-- Words are none. -/
theorem mutes_scanWord : Mutes s.scanWord s.quiet.scanWord := by
  rw [scanWord, scanWord, cursor_quiet]
  cases (s.cursor.skip continuesWord).head? with
  | none => exact mutes_emit s _ (TokenKind.isTrivia_ofWord _)
  | some r =>
    dsimp only
    split_ifs with hr
    · exact mutes_emit s _ (TokenKind.isTrivia_ofWord _)
    · exact mutes_fail s _ _ _

/-- A bracket is counted and emitted alike. -/
theorem mutes_bracket (b : Bracket) (n : Nat) (hkind : kind.isTrivia = false) :
    Mutes ((s.setDepth b n).emit c kind) ((s.quiet.setDepth b n).emit c kind) := by
  rw [setDepth_quiet]
  exact mutes_emit (s.setDepth b n) c hkind

/-- Whatever begins at a rune begins for both. -/
theorem mutes_scanOnset (r : Char) (onset : Onset) :
    Mutes (s.scanOnset r onset) (s.quiet.scanOnset r onset) := by
  -- what begins was decided by the rune alone
  cases onset with
  | run next => exact mutes_goto s _ next
  | quoted next => exact mutes_goto s _ next
  | char => exact mutes_goto s _ .char
  | slash =>
    show Mutes (s.scanSlash (s.cursor.past r)) (s.quiet.scanSlash (s.cursor.past r))
    unfold scanSlash
    split
    · exact mutes_goto s _ .lineComment
    · exact mutes_goto s _ .blockComment
    · exact mutes_emit s _ rfl
  | opening b =>
    show Mutes (s.scanOpening _ b) (s.quiet.scanOpening (s.cursor.past r) b)
    rw [scanOpening, scanOpening, depth_quiet]
    exact mutes_bracket s _ b _ rfl
  | closing b =>
    show Mutes (s.scanClosing _ b) (s.quiet.scanClosing (s.cursor.past r) b)
    rw [scanClosing, scanClosing, depth_quiet]
    -- both refuse the bracket, or both count it off
    cases s.depth b with
    | zero => exact mutes_fail s _ _ _
    | succ n => exact mutes_bracket s _ b n rfl
  | literal => exact mutes_emit s _ rfl
  | unknown => exact mutes_fail s _ _ _

/-- Between tokens both do the same. -/
theorem mutes_scanNeutral : Mutes s.scanNeutral s.quiet.scanNeutral := by
  cases hhead : s.cursor.head? with
  | none =>
    -- both have the same brackets open
    have hdepths : (s.quiet.parens ≠ 0 ∨ s.quiet.braces ≠ 0) = (s.parens ≠ 0 ∨ s.braces ≠ 0) := rfl
    rw [scanNeutral, scanNeutral, cursor_quiet, hhead]
    dsimp only
    simp only [hdepths]
    split_ifs with hopen
    · exact mutes_fail s _ _ _
    · exact ⟨rfl, rfl⟩
  | some r =>
    have hhead' : s.quiet.cursor.head? = some r := hhead
    rw [scanNeutral_eq_scanOnset hhead, scanNeutral_eq_scanOnset hhead']
    exact mutes_scanOnset s r _

/-- **One step reports the same, but for white space.** -/
theorem mutes_step (state : ScanState) : Mutes (s.step state) (s.quiet.step state) := by
  cases state with
  | neutral => exact mutes_scanNeutral s
  | blanks => exact mutes_scanTrivia s rfl
  | lineEnds => exact mutes_scanTrivia s rfl
  | string => exact mutes_scanDelimited s rfl
  | quote => exact mutes_scanDelimited s rfl
  | char => exact mutes_scanChar s
  | lineComment => exact mutes_scanDelimited s rfl
  | blockComment => exact mutes_scanDelimited s rfl
  | number => exact mutes_scanNumber s
  | word => exact mutes_scanWord s

end Mutes

/-! ### A whole scan -/

/-- A chain of steps reports the same, but for white space. -/
theorem tokens_drive_quiet (bound : Nat) (s : Scanner) (state : Option ScanState) :
    (drive bound s.quiet state).tokens =
      (drive bound s state).tokens.filter (!·.kind.isTrivia) := by
  induction bound generalizing s state with
  | zero => cases state <;> rfl
  | succ bound ih =>
    cases state with
    | none => rw [drive_none, drive_none]; rfl
    | some state =>
      have hstep := mutes_step s state
      rw [tokens_drive_succ, tokens_drive_succ, List.filter_append, hstep.tokens_eq,
        hstep.result_eq, ih]

end Scanner

/-- **White space is all that a scan leaves out** where it is not reported: the tokens are those of
any scan of the source, less the white space. -/
theorem lex_eq_filter (options : ScanOptions) (source : String) :
    lex source = (lexWith options source).filter (!·.kind.isTrivia) :=
  Scanner.tokens_drive_quiet _ (Scanner.ofSource source options) (some .neutral)

end DeclFront
