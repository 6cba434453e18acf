import DeclFront.Proofs.Scan.Bound
import DeclFront.Proofs.Text.Reading
import Mathlib.Logic.Function.Basic

/-!
# The pieces of a scan

Between tokens a scan is determined by what is ahead and by how many brackets are open. This module
says what it makes of each sort of piece that may come next, whatever comes after the piece:

* `Stands.white`: a rune of white space leaves no token;
* `Stands.comment`: a closed comment is one token;
* `Stands.word`: a word is one token, if what follows may stand after a word;
* `Stands.opening`, `Stands.closing`, `Stands.comma`: a bracket or a comma is one token, and a
  bracket changes what is open.

Each of them leaves the scan between tokens again, so pieces can be put together in any order.
-/

namespace DeclFront

/-- Whether a rune is white space. -/
def isWhite (r : Char) : Bool :=
  isBlank r || isLineEnd r

/-- There are four runes of white space. -/
theorem isWhite_cases {r : Char} (h : isWhite r = true) :
    r = ' ' ∨ r = '\t' ∨ r = '\r' ∨ r = '\n' := by
  rw [isWhite, isBlank, isLineEnd, Bool.or_eq_true, Bool.or_eq_true, Bool.or_eq_true] at h
  simp only [beq_iff_eq] at h
  obtain (h | h) | (h | h) := h
  · exact .inl h
  · exact .inr (.inl h)
  · exact .inr (.inr (.inl h))
  · exact .inr (.inr (.inr h))

/-- All four of them are white space. -/
theorem isWhite_of_mem {r : Char} (h : r ∈ [' ', '\t', '\r', '\n']) : isWhite r = true := by
  simp only [List.mem_cons, List.not_mem_nil, or_false] at h
  obtain rfl | rfl | rfl | rfl := h <;> rfl

/-- Whether the runes make up a word: a word rune other than a digit, then word runes and points. -/
def isWord : List Char → Bool
  | [] => false
  | r :: runes => isWordRune r && !isDecimal r && runes.all continuesWord

namespace Cursor

/-- A cursor is determined by what it holds and by what can be taken back. -/
theorem Holds.eq {c c' : Cursor} {before piece ahead : List Char} (h : c.Holds before piece ahead)
    (h' : c'.Holds before piece ahead) (hundo : c.undo = c'.undo) : c = c' := by
  have hsource : c.source = c'.source := String.toList_inj.1 (h.source_eq.trans h'.source_eq.symm)
  have hoffset : c.offset = c'.offset := h.offset_eq.trans h'.offset_eq.symm
  have hmark : c.mark = c'.mark := h.mark_eq.trans h'.mark_eq.symm
  cases c
  cases c'
  cases hsource
  cases hoffset
  cases hmark
  cases hundo
  rfl

/-- After a run there is nothing to take back, however many runes were counted. -/
theorem undo_skipFrom (p : Char → Bool) (count : Nat) (c : Cursor) :
    (skipFrom p count c).2.undo = 0 := by
  fun_induction skipFrom p count c with
  | case1 count c h => rfl
  | case2 count c r h hr ih => exact ih
  | case3 count c r h hr => rfl

/-- After a run there is nothing to take back. -/
theorem undo_skip (c : Cursor) (p : Char → Bool) : (c.skip p).undo = 0 :=
  undo_skipFrom p 0 c

end Cursor

namespace Scanner

/-! ### Where a scan stands between tokens -/

@[simp] theorem cursor_moveTo (s : Scanner) (c : Cursor) : (s.moveTo c).cursor = c := rfl

@[simp] theorem options_moveTo (s : Scanner) (c : Cursor) : (s.moveTo c).options = s.options := rfl

@[simp] theorem depth_moveTo (s : Scanner) (c : Cursor) (b : Bracket) :
    (s.moveTo c).depth b = s.depth b := by
  cases b <;> rfl

@[simp] theorem options_setDepth (s : Scanner) (b : Bracket) (n : Nat) :
    (s.setDepth b n).options = s.options := by
  cases b <;> rfl

@[simp] theorem cursor_setDepth (s : Scanner) (b : Bracket) (n : Nat) :
    (s.setDepth b n).cursor = s.cursor := by
  cases b <;> rfl

theorem depth_setDepth (s : Scanner) (b b' : Bracket) (n : Nat) :
    (s.setDepth b n).depth b' = Function.update s.depth b n b' := by
  cases b <;> cases b' <;> rfl

/-- The scan does not report white space; nothing is collected, with the runes `before` behind and
`ahead` to come, and `depths` tells how many brackets of each pair are open. -/
structure Stands (s : Scanner) (before ahead : List Char) (depths : Bracket → Nat) : Prop where
  holds : s.cursor.Holds before [] ahead
  depth_eq : s.depth = depths
  quiet : s.options.keepTrivia = false

variable {s s' : Scanner} {before ahead : List Char} {depths : Bracket → Nat} {c : Cursor}

/-- At the start of a source everything is ahead and nothing is open. -/
theorem stands_ofSource (source : String) :
    (ofSource source ⟨false⟩).Stands [] source.toList fun _ => 0 where
  holds := Cursor.holds_ofSource source
  depth_eq := by
    funext b
    cases b <;> rfl
  quiet := rfl

/-- Moving the cursor changes nothing else. -/
theorem Stands.moveTo {piece ahead' : List Char} (h : s.Stands before ahead depths)
    (hc : c.Holds before piece ahead') :
    (s.moveTo c.discard).Stands (before ++ piece) ahead' depths where
  holds := hc.discard
  depth_eq := by
    funext b
    rw [depth_moveTo, h.depth_eq]
  quiet := h.quiet

/-- Opening or closing brackets moves nothing. -/
theorem Stands.setDepth (h : s.Stands before ahead depths) (b : Bracket) (n : Nat) :
    (s.setDepth b n).Stands before ahead (Function.update depths b n) where
  holds := by
    rw [cursor_setDepth]
    exact h.holds
  depth_eq := by
    funext b'
    rw [depth_setDepth, h.depth_eq]
  quiet := by
    rw [options_setDepth]
    exact h.quiet

/-- The tokens of a scan whose first step leads back between tokens. -/
theorem tokens_run_of_step (h : s.scanNeutral.result = (some .neutral, s')) :
    s.run.tokens = s.scanNeutral.tokens ++ s'.run.tokens :=
  tokens_runFrom_of_next s.ready_neutral h

/-- Where the first step hands over to another state, that state may be entered, and its scan has
all the tokens. -/
theorem ready_and_tokens_of_goto {state : ScanState} (h : s.scanNeutral = s.goto c state) :
    (s.moveTo c).Ready state ∧ s.run.tokens = ((s.moveTo c).runFrom state).tokens := by
  have hnext : (s.step .neutral).result = (some state, s.moveTo c) := by
    show s.scanNeutral.result = _
    rw [h, result_goto]
  have htokens : (s.step .neutral).tokens = [] := by
    show s.scanNeutral.tokens = _
    rw [h, tokens_goto]
  refine ⟨(s.ready_neutral.step _ _ hnext).1, ?_⟩
  rw [run_eq_runFrom, tokens_runFrom_of_next s.ready_neutral hnext, htokens, List.nil_append]

/-- The tokens of a scan whose second step leads back between tokens. -/
theorem tokens_run_of_goto {state : ScanState} (h : s.scanNeutral = s.goto c state)
    (h' : ((s.moveTo c).step state).result = (some .neutral, s')) :
    s.run.tokens = ((s.moveTo c).step state).tokens ++ s'.run.tokens := by
  obtain ⟨hready, htokens⟩ := ready_and_tokens_of_goto h
  rw [htokens, tokens_runFrom_of_next hready h', run_eq_runFrom]

/-- A scan that has read everything ends without a token, if no bracket is open. -/
theorem Stands.tokens_eq_nil (h : s.Stands before [] fun _ => 0) : s.run.tokens = [] := by
  have hhead : s.cursor.head? = none := h.holds.head?_eq
  have hparens : s.parens = 0 := congrFun h.depth_eq .paren
  have hbraces : s.braces = 0 := congrFun h.depth_eq .brace
  have hstep : s.step .neutral = .halt (none, s.moveTo s.cursor.settle) := by
    show s.scanNeutral = _
    rw [scanNeutral, hhead]
    dsimp only
    rw [hparens, hbraces]
    exact if_neg (by decide)
  -- the first step is the last one, and emits nothing
  have hstop : (s.step .neutral).result.1 = none := by
    rw [hstep]
    rfl
  rw [run_eq_runFrom, tokens_runFrom_of_stop s.ready_neutral hstop, hstep]
  rfl

/-! ### White space -/

namespace Collects

variable {state : ScanState} {kind : TokenKind} {p : Char → Bool} {r : Char}

/-- The state reads a run of white space. -/
theorem step_eq (h : Collects state kind p) (s : Scanner) : s.step state = s.scanTrivia kind p := by
  cases h <;> rfl

/-- A rune of white space leads into the state that collects it. -/
theorem scanNeutral_eq (h : Collects state kind p) (hhead : s.cursor.head? = some r)
    (hr : p r = true) : s.scanNeutral = s.goto s.cursor.settle state := by
  rw [scanNeutral, hhead]
  cases h with
  | lineEnds => exact if_pos hr
  | blanks =>
    -- line ends are tested for before blanks
    have hline : ¬ isLineEnd r = true := by
      rw [isBlank, Bool.or_eq_true, beq_iff_eq, beq_iff_eq] at hr
      obtain rfl | rfl := hr <;> decide
    exact (if_neg hline).trans (if_pos hr)

/-- Every rune of white space is collected by some state. -/
theorem exists_of_isWhite (hr : isWhite r = true) :
    ∃ state kind p, Collects state kind p ∧ p r = true := by
  rw [isWhite, Bool.or_eq_true] at hr
  obtain hr | hr := hr
  · exact ⟨_, _, _, .blanks, hr⟩
  · exact ⟨_, _, _, .lineEnds, hr⟩

/-- A run of white space that is not reported is passed over without a token. -/
theorem tokens_run (h : Collects state kind p) (hquiet : s.options.keepTrivia = false)
    (hhead : s.cursor.head? = some r) (hr : p r = true) :
    s.run.tokens = (s.moveTo (s.cursor.settle.skip p).discard).run.tokens := by
  -- white space that is not reported is discarded
  have hstep : (s.moveTo s.cursor.settle).step state =
      (s.moveTo s.cursor.settle).goto (s.cursor.settle.skip p).discard .neutral := by
    rw [h.step_eq, scanTrivia]
    refine if_neg ?_
    rw [options_moveTo, hquiet]
    exact Bool.false_ne_true
  rw [tokens_run_of_goto (h.scanNeutral_eq hhead hr) (congrArg Emitter.result hstep), hstep]
  rfl

end Collects

/-- **White space.** A scan goes on after a rune of white space as if it began there. -/
theorem Stands.white {r : Char} (h : s.Stands before (r :: ahead) depths) (hr : isWhite r = true) :
    ∃ s' : Scanner, s'.Stands (before ++ [r]) ahead depths ∧ s.run.tokens = s'.run.tokens := by
  obtain ⟨state, kind, p, collects, hp⟩ := Collects.exists_of_isWhite hr
  have hrun := collects.tokens_run h.quiet h.holds.head?_eq hp
  have hcursor := h.holds.settle.skip p
  rw [List.takeWhile_cons_of_pos hp, List.dropWhile_cons_of_pos hp, List.nil_append] at hcursor
  by_cases hahead : ∃ q, ahead.head? = some q ∧ p q = true
  · -- The run goes on, and a scan from its second rune skips the same runes.
    obtain ⟨q, hq, hpq⟩ := hahead
    have hs' := h.moveTo h.holds.past
    refine ⟨_, hs', ?_⟩
    rw [hrun, collects.tokens_run hs'.quiet (hs'.holds.head?_eq.trans hq) hpq]
    have hcursor' := hs'.holds.settle.skip p
    have heq : (s.cursor.settle.skip p).discard =
        ((s.cursor.past r).discard.settle.skip p).discard := by
      refine Cursor.Holds.eq hcursor.discard ?_ ?_
      · have hd := hcursor'.discard
        rw [cursor_moveTo, List.nil_append, List.append_assoc] at hd
        exact hd
      · show (s.cursor.settle.skip p).undo = ((s.cursor.past r).discard.settle.skip p).undo
        rw [Cursor.undo_skip, Cursor.undo_skip]
    rw [heq]
    rfl
  · -- The run is `r` alone.
    have hnone : ahead.takeWhile p = [] ∧ ahead.dropWhile p = ahead :=
      takeWhile_eq_nil_of_head fun q hq hpq => hahead ⟨q, hq, hpq⟩
    rw [hnone.1, hnone.2] at hcursor
    exact ⟨_, h.moveTo hcursor, hrun⟩

/-! ### Comments -/

namespace CommentMark

variable {q : Char} {state : ScanState} {form : Delimited}

/-- The token that a comment makes is of the kind of comments. -/
theorem kind_eq (mark : CommentMark q state form) : form.kind = .comment := by
  cases mark <;> rfl

/-- Nothing is hidden in a comment. -/
theorem plain (mark : CommentMark q state form) : form.escapes = false := by
  cases mark <;> rfl

/-- A comment has something that closes it. -/
theorem closer_ne_nil (mark : CommentMark q state form) : form.closer ≠ [] := by
  cases mark <;> exact List.cons_ne_nil _ _

/-- The state inside a comment reads it as a delimited piece. -/
theorem step_eq (mark : CommentMark q state form) (s : Scanner) :
    s.step state = s.scanDelimited form := by
  cases mark <;> rfl

theorem scanNeutral_eq (mark : CommentMark q state form) (hslash : s.cursor.head? = some '/')
    (hmark : (s.cursor.past '/').head? = some q) :
    s.scanNeutral = s.goto ((s.cursor.past '/').past q) state := by
  rw [scanNeutral, hslash]
  show s.scanSlash (s.cursor.past '/') = _
  rw [scanSlash, hmark]
  cases mark <;> rfl

end CommentMark

/-- A delimited piece whose closer was found is one token, and the scan is between tokens after the
closer. -/
theorem scanDelimited_found {form : Delimited} {piece : List Char}
    (hseek : s.cursor.seek form = (true, c)) (hc : c.Holds before piece (form.closer ++ ahead)) :
    ∃ c', c'.Holds (before ++ (piece ++ form.closer)) [] ahead ∧
      (s.scanDelimited form).result = (some .neutral, s.moveTo c') ∧
      (s.scanDelimited form).tokens = [.ofPiece form.kind before
        (piece ++ if form.keepsCloser then form.closer else [])] := by
  rw [scanDelimited, hseek]
  dsimp only
  cases hkeeps : form.keepsCloser with
  | true =>
    -- the closer is read into the piece before the token is made
    have hjump := hc.jump
    exact ⟨_, hjump.discard, rfl, congrArg (fun t => [t]) (hjump.token_eq form.kind)⟩
  | false =>
    -- the token is made first, and the closer left behind as a piece of its own
    have hjump := hc.discard.jump.discard
    refine ⟨_, ?_, rfl, ?_⟩
    · rw [List.append_assoc, List.nil_append] at hjump
      exact hjump
    · rw [if_neg Bool.false_ne_true, if_neg Bool.false_ne_true, List.append_nil]
      exact congrArg (fun t => [t]) (hc.token_eq form.kind)

/-- A closed delimited piece without escapes is one token, and the scan is between tokens after its
closer. -/
theorem scanDelimited_closed {form : Delimited} {piece body : List Char}
    (hplain : form.escapes = false) (hclear : Clear form.closer body)
    (h : s.cursor.Holds before piece (body ++ (form.closer ++ ahead))) :
    ∃ c, c.Holds (before ++ (piece ++ (body ++ form.closer))) [] ahead ∧
      (s.scanDelimited form).result = (some .neutral, s.moveTo c) ∧
      (s.scanDelimited form).tokens = [.ofPiece form.kind before
        (piece ++ (body ++ if form.keepsCloser then form.closer else []))] := by
  obtain ⟨c, hseek, hc⟩ := h.seek_closed hplain hclear
  obtain ⟨c', hc', hresult, htokens⟩ := scanDelimited_found hseek hc
  rw [List.append_assoc] at hc' htokens
  exact ⟨c', hc', hresult, htokens⟩

/-- An unclosed delimited piece leaves an end marker. -/
theorem endMarker_mem_scanDelimited {form : Delimited} (h : s.cursor.seek form = (false, c)) :
    ∃ t ∈ (s.scanDelimited form).tokens, t.kind = .endMarker := by
  rw [scanDelimited, h]
  dsimp only
  split_ifs
  · exact ⟨_, List.mem_cons_of_mem _ (List.mem_singleton_self _), rfl⟩
  · exact ⟨_, List.mem_singleton_self _, rfl⟩

/-- **Comments.** A closed comment is one token. -/
theorem Stands.comment {q : Char} {state : ScanState} {form : Delimited} {body : List Char}
    (mark : CommentMark q state form) (hclear : Clear form.closer body)
    (h : s.Stands before ('/' :: q :: (body ++ (form.closer ++ ahead))) depths) :
    ∃ s' : Scanner, s'.Stands (before ++ '/' :: q :: (body ++ form.closer)) ahead depths ∧
      s.run.tokens = .ofPiece .comment before
        ('/' :: q :: (body ++ if form.keepsCloser then form.closer else [])) :: s'.run.tokens := by
  have hslash := h.holds.past
  have hopener := hslash.past
  obtain ⟨c, hc, hresult, htokens⟩ :=
    scanDelimited_closed (s := s.moveTo ((s.cursor.past '/').past q)) mark.plain hclear hopener
  -- the state that the comment leads to is the one that was run
  rw [← mark.step_eq] at hresult htokens
  rw [mark.kind_eq] at htokens
  refine ⟨s.moveTo c, ⟨hc, ?_, h.quiet⟩, ?_⟩
  · funext b
    rw [depth_moveTo, h.depth_eq]
  · rw [tokens_run_of_goto (mark.scanNeutral_eq h.holds.head?_eq hslash.head?_eq) hresult, htokens]
    rfl

/-! ### Words -/

/-- A word rune is none of the others. -/
theorem ne_of_isWordRune {r q : Char} (hr : isWordRune r = true) (hq : isWordRune q = false) :
    r ≠ q := by
  rintro rfl
  rw [hr] at hq
  cases hq

/-- A word rune other than a digit begins a word. -/
theorem scanNeutral_of_word {r : Char} (hhead : s.cursor.head? = some r)
    (hr : isWordRune r = true) (hdecimal : isDecimal r = false) :
    s.scanNeutral = s.goto s.cursor.settle .word := by
  -- the tests made before the one for word runes all ask for runes that are none
  have hlineEnd : ¬ isLineEnd r = true := by
    rw [isLineEnd, Bool.or_eq_true, beq_iff_eq, beq_iff_eq, not_or]
    exact ⟨ne_of_isWordRune hr (by decide), ne_of_isWordRune hr (by decide)⟩
  have hblank : ¬ isBlank r = true := by
    rw [isBlank, Bool.or_eq_true, beq_iff_eq, beq_iff_eq, not_or]
    exact ⟨ne_of_isWordRune hr (by decide), ne_of_isWordRune hr (by decide)⟩
  have hnumber : ¬ (Cursor.isSign r || isDecimal r) = true := by
    rw [hdecimal, Bool.or_false, Cursor.isSign, Bool.or_eq_true, beq_iff_eq, beq_iff_eq, not_or]
    exact ⟨ne_of_isWordRune hr (by decide), ne_of_isWordRune hr (by decide)⟩
  rw [scanNeutral, hhead]
  dsimp only
  rw [if_neg hlineEnd, if_neg hblank, if_neg (ne_of_isWordRune hr (by decide)),
    if_neg (ne_of_isWordRune hr (by decide)), if_neg (ne_of_isWordRune hr (by decide)),
    if_neg (ne_of_isWordRune hr (by decide)), if_neg hnumber, if_pos hr]

/-- A word leads into its state, which reads it whole if what follows does not continue it. -/
theorem Stands.goto_word {w : List Char} (h : s.Stands before (w ++ ahead) depths)
    (hw : isWord w = true) (hnext : ∀ q, ahead.head? = some q → continuesWord q = false) :
    s.scanNeutral = s.goto s.cursor.settle .word ∧
      (s.cursor.settle.skip continuesWord).Holds before w ahead := by
  obtain ⟨r, runes, rfl⟩ : ∃ r runes, w = r :: runes := by
    cases w with
    | nil => cases hw
    | cons r runes => exact ⟨r, runes, rfl⟩
  rw [isWord, Bool.and_eq_true, Bool.and_eq_true, Bool.not_eq_true', List.all_eq_true] at hw
  obtain ⟨⟨hr, hdecimal⟩, hrunes⟩ := hw
  refine ⟨scanNeutral_of_word h.holds.head?_eq hr hdecimal, ?_⟩
  have hall : ∀ q ∈ r :: runes, continuesWord q = true := by
    intro q hq
    obtain rfl | hq := List.mem_cons.1 hq
    · rw [continuesWord, hr, Bool.true_or]
    · exact hrunes q hq
  -- The run of runes that continue a word is the word, for what is ahead does not continue it.
  have hstop : ahead.takeWhile continuesWord = [] ∧ ahead.dropWhile continuesWord = ahead := by
    refine takeWhile_eq_nil_of_head fun q hq => ?_
    rw [hnext q hq]
    exact Bool.false_ne_true
  have hskip := h.holds.settle.skip continuesWord
  rwa [List.takeWhile_append_of_pos hall, List.dropWhile_append_of_pos hall, hstop.1, hstop.2,
    List.append_nil, List.nil_append] at hskip

/-- **Words.** A word is one token, if what follows it may stand after a word. -/
theorem Stands.word {w : List Char} (h : s.Stands before (w ++ ahead) depths)
    (hw : isWord w = true)
    (hnext : ∀ q, ahead.head? = some q → endsWord q = true ∧ continuesWord q = false) :
    ∃ s' : Scanner, s'.Stands (before ++ w) ahead depths ∧
      s.run.tokens = .ofPiece (.ofWord (String.ofList w)) before w :: s'.run.tokens := by
  obtain ⟨hgoto, hskip⟩ := h.goto_word hw fun q hq => (hnext q hq).2
  have hstep : (s.moveTo s.cursor.settle).step .word = (s.moveTo s.cursor.settle).emit
      (s.cursor.settle.skip continuesWord)
      (.ofWord (s.cursor.settle.skip continuesWord).pending) := by
    show scanWord _ = _
    rw [scanWord, cursor_moveTo, hskip.head?_eq]
    cases hq : ahead.head? with
    | none => rfl
    | some q => exact if_pos (hnext q hq).1
  refine ⟨_, h.moveTo hskip, ?_⟩
  rw [tokens_run_of_goto hgoto (congrArg Emitter.result hstep), hstep, tokens_emit,
    hskip.token_eq, hskip.pending_eq]
  rfl

/-! ### Brackets and commas -/

/-- **Opening brackets.** -/
theorem Stands.opening (b : Bracket) (h : s.Stands before (b.opening :: ahead) depths) :
    ∃ s' : Scanner, s'.Stands (before ++ [b.opening]) ahead
        (Function.update depths b (depths b + 1)) ∧
      s.run.tokens = .ofPiece .bracketOpen before [b.opening] :: s'.run.tokens := by
  have hhead : s.cursor.head? = some b.opening := h.holds.head?_eq
  have hpast := h.holds.past
  have hstep : s.scanNeutral =
      (s.setDepth b (depths b + 1)).emit (s.cursor.past b.opening) .bracketOpen := by
    rw [← h.depth_eq, scanNeutral, hhead]
    cases b <;> rfl
  refine ⟨_, (h.setDepth b (depths b + 1)).moveTo hpast, ?_⟩
  rw [tokens_run_of_step (congrArg Emitter.result hstep), hstep]
  exact congrArg (· :: _) (hpast.token_eq .bracketOpen)

/-- A closing bracket is taken or refused by the count of its pair. -/
theorem scanNeutral_of_closing {b : Bracket} (hhead : s.cursor.head? = some b.closing) :
    s.scanNeutral = s.scanClosing (s.cursor.past b.closing) b := by
  rw [scanNeutral, hhead]
  cases b <;> rfl

/-- **Closing brackets**, where one of the pair is open. -/
theorem Stands.closing (b : Bracket) {n : Nat} (h : s.Stands before (b.closing :: ahead) depths)
    (hopen : depths b = n + 1) :
    ∃ s' : Scanner, s'.Stands (before ++ [b.closing]) ahead (Function.update depths b n) ∧
      s.run.tokens = .ofPiece .bracketClose before [b.closing] :: s'.run.tokens := by
  have hhead : s.cursor.head? = some b.closing := h.holds.head?_eq
  have hpast := h.holds.past
  -- one of the pair is open, so the bracket is counted off
  have hstep : s.scanNeutral = (s.setDepth b n).emit (s.cursor.past b.closing) .bracketClose := by
    rw [scanNeutral_of_closing hhead, scanClosing, h.depth_eq, hopen]
  refine ⟨_, (h.setDepth b n).moveTo hpast, ?_⟩
  rw [tokens_run_of_step (congrArg Emitter.result hstep), hstep]
  exact congrArg (· :: _) (hpast.token_eq .bracketClose)

/-- **Commas.** -/
theorem Stands.comma (h : s.Stands before (',' :: ahead) depths) :
    ∃ s' : Scanner, s'.Stands (before ++ [',']) ahead depths ∧
      s.run.tokens = .ofPiece .literal before [','] :: s'.run.tokens := by
  have hhead : s.cursor.head? = some ',' := h.holds.head?_eq
  have hpast := h.holds.past
  have hstep : s.scanNeutral = s.emit (s.cursor.past ',') .literal := by
    rw [scanNeutral, hhead]
    rfl
  refine ⟨_, h.moveTo hpast, ?_⟩
  rw [tokens_run_of_step (congrArg Emitter.result hstep), hstep]
  exact congrArg (· :: _) (hpast.token_eq .literal)

end Scanner

end DeclFront
