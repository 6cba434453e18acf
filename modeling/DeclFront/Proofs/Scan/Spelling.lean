import DeclFront.Proofs.Scan.Piece

/-!
# The tokens that are words

A word is spelled like one. Of the states of a scan only one makes tokens of the kinds that words
have, and it is entered only at a word rune that is no digit, with nothing collected before it. So
the text of such a token is a word, and its kind is the one that its spelling has.

The invariant behind this is small: between tokens, and where a word begins, the mark lies at the
reading position (`Scanner.Marked`). `Scanner.spells_step` is its step lemma, and
`Token.spelled_of_mem_lexWith` is what it comes to over a whole scan.
-/

namespace DeclFront

/-- Whether the kind is one that words have. -/
def TokenKind.isVerbal : TokenKind → Bool
  | identifier | bool | keyword _ => true
  | _ => false

/-- If the token has a kind that words have, then its text is a word and that of this kind. -/
def Token.Spelled (t : Token) : Prop :=
  t.kind.isVerbal = true → isWord t.text.toList = true ∧ t.kind = .ofWord t.text

/-- Nothing is asked of tokens of other kinds. -/
theorem Token.spelled_of_kind {t : Token} (h : t.kind.isVerbal = false) : t.Spelled := by
  intro hverbal
  rw [h] at hverbal
  cases hverbal

namespace Scanner

/-- Between tokens, and where a word begins, nothing is collected. -/
def Marked (s : Scanner) : ScanState → Prop
  | .neutral | .word => s.cursor.mark = s.cursor.offset
  | _ => True

/-- The tokens of the step are spelled right, and wherever it leads nothing is collected that should
not be. -/
structure Spells (step : ScanStep) : Prop where
  spelled : ∀ t ∈ step.tokens, t.Spelled
  marked : ∀ next s', step.result = (some next, s') → s'.Marked next

variable {s : Scanner} {c : Cursor}

/-- Going on emits nothing that could be spelled wrong. -/
theorem spells_goto {next : ScanState} (h : (s.moveTo c).Marked next) : Spells (s.goto c next) where
  spelled t ht := by cases ht
  marked next' s' hnext := by
    cases hnext
    exact h

/-- A piece that is spelled right leaves the mark at the position. -/
theorem spells_emit {kind : TokenKind} (h : Token.Spelled ⟨kind, c.pending, c.span⟩) :
    Spells (s.emit c kind) where
  spelled t ht := by
    rw [tokens_emit, List.mem_singleton] at ht
    rwa [ht]
  marked next s' hnext := by
    cases hnext
    rfl

/-- Of a kind that words do not have, any piece is. -/
theorem spells_emit_of_kind {kind : TokenKind} (h : kind.isVerbal = false) :
    Spells (s.emit c kind) :=
  spells_emit (Token.spelled_of_kind h)

/-- A failure is no word, and leads nowhere. -/
theorem spells_fail (message : String) (span : Span) : Spells (s.fail c message span) where
  spelled t ht := by
    rw [tokens_fail, List.mem_singleton] at ht
    rw [ht]
    exact Token.spelled_of_kind rfl
  marked next s' hnext := by cases hnext

/-- Nor is an end marker. -/
theorem spells_emitEnd : Spells (s.emitEnd c) where
  spelled t ht := by
    rw [tokens_emitEnd, List.mem_singleton] at ht
    rw [ht]
    exact Token.spelled_of_kind rfl
  marked next s' hnext := by cases hnext

/-- A piece of another kind, and what follows it. -/
theorem spells_emitThen {kind : TokenKind} (h : kind.isVerbal = false)
    {after : Scanner → ScanStep} (hafter : Spells (after (s.moveTo c.discard))) :
    Spells (s.emitThen c kind after) where
  spelled t ht := by
    rw [tokens_emitThen] at ht
    obtain rfl | ht := List.mem_cons.1 ht
    · exact Token.spelled_of_kind h
    · exact hafter.spelled t ht
  marked next s' hnext := hafter.marked next s' hnext

/-- What a word state collects is a word. -/
theorem spelled_word (hready : s.Ready .word) (hmarked : s.Marked .word) :
    Token.Spelled ⟨.ofWord (s.cursor.skip continuesWord).pending,
      (s.cursor.skip continuesWord).pending, (s.cursor.skip continuesWord).span⟩ := by
  obtain ⟨r, hhead, hr, hdecimal⟩ := hready.exists_word
  obtain ⟨before, ahead, hbetween⟩ := Cursor.exists_between_of_head? hhead
  -- nothing was collected before `r`, so the piece is the run and nothing else
  have hholds : s.cursor.Holds before [] (r :: ahead) :=
    ⟨hbetween.1, hmarked.trans hbetween.2, hbetween.2⟩
  have hskip := hholds.skip continuesWord
  have hcontinues : continuesWord r = true := by rw [continuesWord, hr, Bool.true_or]
  rw [List.takeWhile_cons_of_pos hcontinues, List.nil_append] at hskip
  refine fun _ => ⟨?_, rfl⟩
  dsimp only
  rw [hskip.pending_eq, String.toList_ofList, isWord, hr, hdecimal, Bool.not_false,
    Bool.true_and, Bool.true_and]
  exact List.all_takeWhile

/-- **One step spells its tokens right.** -/
theorem spells_step {state : ScanState} (hready : s.Ready state) (hmarked : s.Marked state) :
    Spells (s.step state) := by
  have hdoes := does_step s state
  generalize s.step state = step at hdoes ⊢
  cases hdoes with
  | finish =>
    refine ⟨fun t ht => ?_, fun next s' hnext => ?_⟩
    · cases ht
    · cases hnext
  | unclosed | stray | unknown | badChar | badNumber | badWord => exact spells_fail ..
  | @beginRun r next hhead hr =>
    refine spells_goto ?_
    cases next with
    -- settling reads nothing, so the mark is where it was between tokens
    | word => exact hmarked
    | blanks | lineEnds | number => trivial
    | _ => cases hr
  | beginQuoted _ mark => cases mark <;> exact spells_goto trivial
  | beginChar => exact spells_goto trivial
  | beginComment _ _ mark => cases mark <;> exact spells_goto trivial
  | slash | opening | closing | literal | char | sign | number => exact spells_emit_of_kind rfl
  | report collects => cases collects <;> exact spells_emit_of_kind rfl
  | pass => exact spells_goto rfl
  | closeKept encloses => cases encloses <;> exact spells_emit_of_kind rfl
  | closeDropped encloses => cases encloses <;> exact spells_emitThen rfl (spells_goto rfl)
  | cut encloses => cases encloses <;> exact spells_emitThen rfl spells_emitEnd
  | cutEmpty => exact spells_emitEnd
  | word => exact spells_emit (spelled_word hready hmarked)

/-- All words in a chain of states are spelled right. -/
theorem spelled_of_mem_drive (bound : Nat) {state : ScanState} (hready : s.Ready state)
    (hmarked : s.Marked state) : ∀ t ∈ (drive bound s (some state)).tokens, t.Spelled := by
  refine forall_mem_drive (I := fun s state => s.Ready state ∧ s.Marked state) ?_ bound
    ⟨hready, hmarked⟩
  -- a state is entered at the right rune, with nothing collected
  rintro s state ⟨hready, hmarked⟩
  have hspells := spells_step hready hmarked
  refine ⟨hspells.spelled, fun next s' hresult => ⟨?_, hspells.marked next s' hresult⟩⟩
  exact (hready.step next s' hresult).1

end Scanner

/-- **Every word that a scan finds is spelled like one.** -/
theorem Token.spelled_of_mem_lexWith (options : ScanOptions) (source : String) :
    ∀ t ∈ lexWith options source, t.Spelled :=
  Scanner.spelled_of_mem_drive _ (Scanner.ready_neutral _) rfl

end DeclFront
