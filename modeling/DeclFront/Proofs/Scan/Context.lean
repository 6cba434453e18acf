import DeclFront.Proofs.Scan.Lossless

/-!
# Pieces in context

What a scan between tokens makes of the runes ahead does not depend on where they stand in the
source: its tokens only move along. It hardly depends on what comes after them either. This module
takes up one piece from the front of the runes ahead and says what becomes of it in every context:

* `PassesOver`: it is passed over, with tokens or without, and the scan is between tokens again. If
  the piece is not the last one, any runes may come after it, and otherwise inert ones;
* `Refuses`: it holds a rune that ends the scan with a failure, whatever comes after it;
* `CutsOff`: the runes end inside it, which is only certain if nothing comes after.

Each piece is one of these (`exists_piece`).
-/

namespace DeclFront

/-! ### Tokens elsewhere -/

/-- The tokens moved right by `n` bytes. -/
def shiftAll (n : Nat) (ts : List Token) : List Token :=
  ts.map (·.shift n)

@[simp] theorem shiftAll_nil (n : Nat) : shiftAll n [] = [] := rfl

@[simp] theorem shiftAll_cons (n : Nat) (t : Token) (ts : List Token) :
    shiftAll n (t :: ts) = t.shift n :: shiftAll n ts := rfl

theorem shiftAll_append (n : Nat) (ts us : List Token) :
    shiftAll n (ts ++ us) = shiftAll n ts ++ shiftAll n us :=
  List.map_append

/-- Two moves are one. -/
theorem shiftAll_shiftAll (m n : Nat) (ts : List Token) :
    shiftAll n (shiftAll m ts) = shiftAll (m + n) ts := by
  rw [shiftAll, shiftAll, List.map_map]
  refine List.map_congr_left fun t _ => ?_
  simp only [Function.comp_apply, Token.shift, Span.shift_shift]

theorem shiftAll_zero (ts : List Token) : shiftAll 0 ts = ts :=
  List.map_id ts

/-- A token moves along with the runes that it is made of. -/
theorem Token.ofPiece_append (kind : TokenKind) (before front piece : List Char) :
    Token.ofPiece kind (before ++ front) piece =
      (Token.ofPiece kind front piece).shift (byteLength before) := by
  simp only [Token.ofPiece, Token.shift, Span.shift, byteLength_append, Token.mk.injEq,
    Span.mk.injEq, true_and]
  omega

/-- A message about a piece moves along with the piece. -/
theorem Cursor.Holds.failure_eq {c : Cursor} {before piece ahead : List Char}
    (h : c.Holds before piece ahead) (message : String) :
    (⟨.error, message, c.span⟩ : Token) =
      (⟨.error, message, ⟨0, byteLength piece⟩⟩ : Token).shift (byteLength before) := by
  simp only [Cursor.span, h.mark_eq, h.offset_eq, Token.shift, Span.shift, Nat.zero_add,
    Nat.add_comm (byteLength before)]

namespace Scanner

/-! ### What begins with a rune -/

/-- What the neutral state takes a rune for. -/
inductive Onset where
  | run (next : ScanState)
  | quoted (next : ScanState)
  | char
  | slash
  | opening (b : Bracket)
  | closing (b : Bracket)
  | literal
  | unknown

/-- The tests of the neutral state, in their order. -/
def Onset.ofRune (r : Char) : Onset :=
  if isLineEnd r then .run .lineEnds
  else if isBlank r then .run .blanks
  else if r = '"' then .quoted .string
  else if r = '\x60' then .quoted .quote
  else if r = '\'' then .char
  else if r = '/' then .slash
  else if Cursor.isSign r || isDecimal r then .run .number
  else if isWordRune r then .run .word
  else if r = '(' then .opening .paren
  else if r = '\x7b' then .opening .brace
  else if r = ')' then .closing .paren
  else if r = '\x7d' then .closing .brace
  else if isGraphic r then .literal
  else .unknown

/-- What the neutral state does with the rune. -/
def scanOnset (s : Scanner) (r : Char) : Onset → ScanStep
  | .run next => s.goto s.cursor.settle next
  | .quoted next => s.goto (s.cursor.past r).discard next
  | .char => s.goto (s.cursor.past r) .char
  | .slash => s.scanSlash (s.cursor.past r)
  | .opening b => s.scanOpening (s.cursor.past r) b
  | .closing b => s.scanClosing (s.cursor.past r) b
  | .literal => s.emit (s.cursor.past r) .literal
  | .unknown => s.fail (s.cursor.past r) ("unrecognized character " ++ nameRune r)
      (s.cursor.past r).span

/-- What the rune is known to be when it is taken for something. -/
def Onset.Suits (r : Char) : Onset → Prop
  | .run next => begins next r = true
  | .quoted next => QuoteMark r next
  | .char => r = '\''
  | .slash => r = '/'
  | .opening b => r = b.opening
  | .closing b => r = b.closing
  | .literal | .unknown => True

/-- A test is passed or failed, and what it leaves is known of the rune. -/
theorem Onset.suits_ite {r : Char} {p : Prop} [Decidable p] {a b : Onset}
    (ha : p → a.Suits r) (hb : ¬ p → b.Suits r) : (if p then a else b).Suits r := by
  split_ifs with hp
  · exact ha hp
  · exact hb hp

/-- **What a rune is taken for, it is.** The tests are made in order, so each may use that the ones
before it failed. -/
theorem Onset.suits_ofRune (r : Char) : (Onset.ofRune r).Suits r := by
  unfold Onset.ofRune
  -- by the tests in their order; a test that passes is all that is asked
  refine suits_ite (fun hlineEnd => hlineEnd) fun _ => ?_
  refine suits_ite (fun hblank => hblank) fun _ => ?_
  refine suits_ite (fun hstring => ?_) fun _ => ?_
  · rw [hstring]
    exact .string
  refine suits_ite (fun hquote => ?_) fun _ => ?_
  · rw [hquote]
    exact .quote
  refine suits_ite (fun hchar => hchar) fun _ => ?_
  refine suits_ite (fun hslash => hslash) fun _ => ?_
  refine suits_ite (fun hnumber => hnumber) fun hnumber => ?_
  refine suits_ite (fun hword => ?_) fun _ => ?_
  · -- a digit is a word rune too, but it was caught by the test before
    rw [Bool.or_eq_true, not_or, Bool.not_eq_true, Bool.not_eq_true] at hnumber
    show (isWordRune r && !isDecimal r) = true
    rw [hword, hnumber.2]
    rfl
  refine suits_ite (fun hparen => hparen) fun _ => ?_
  refine suits_ite (fun hbrace => hbrace) fun _ => ?_
  refine suits_ite (fun hparen => hparen) fun _ => ?_
  refine suits_ite (fun hbrace => hbrace) fun _ => ?_
  exact suits_ite (fun _ => trivial) fun _ => trivial

/-- **The next rune decides what begins**, wherever the scan stands. -/
theorem scanNeutral_eq_scanOnset {s : Scanner} {r : Char} (hhead : s.cursor.head? = some r) :
    s.scanNeutral = s.scanOnset r (.ofRune r) := by
  rw [scanNeutral, hhead, Onset.ofRune]
  -- the tests are the same, and the step is moved out of them
  simp only [apply_ite (s.scanOnset r)]
  rfl

/-! ### One step and two steps -/

section Steps

variable {s : Scanner} {before ahead piece rest : List Char} {depths : Bracket → Nat}
  {c c₀ : Cursor} {state : ScanState} {kind : TokenKind}

/-- The tokens of a scan whose first step halts. -/
theorem tokens_run_of_stop (h : s.scanNeutral.result.1 = none) :
    s.run.tokens = s.scanNeutral.tokens :=
  tokens_runFrom_of_stop s.ready_neutral h

/-- The tokens of a scan whose second step halts. -/
theorem tokens_run_of_goto_of_stop (h : s.scanNeutral = s.goto c state)
    (h' : ((s.moveTo c).step state).result.1 = none) :
    s.run.tokens = ((s.moveTo c).step state).tokens := by
  obtain ⟨hready, htokens⟩ := ready_and_tokens_of_goto h
  rw [htokens, tokens_runFrom_of_stop hready h']

/-- The first step emits a token. -/
theorem Stands.emits (h : s.Stands before ahead depths) (hstep : s.scanNeutral = s.emit c kind)
    (hc : c.Holds before piece rest) :
    ∃ s' : Scanner, s'.Stands (before ++ piece) rest depths ∧
      s.run.tokens = .ofPiece kind before piece :: s'.run.tokens := by
  refine ⟨_, h.moveTo hc, ?_⟩
  rw [tokens_run_of_step (congrArg Emitter.result hstep), hstep, tokens_emit, hc.token_eq]
  rfl

/-- The second step emits a token. -/
theorem Stands.emits_of_goto (h : s.Stands before ahead depths)
    (hgoto : s.scanNeutral = s.goto c₀ state)
    (hstep : (s.moveTo c₀).step state = (s.moveTo c₀).emit c kind)
    (hc : c.Holds before piece rest) :
    ∃ s' : Scanner, s'.Stands (before ++ piece) rest depths ∧
      s.run.tokens = .ofPiece kind before piece :: s'.run.tokens := by
  refine ⟨_, h.moveTo hc, ?_⟩
  rw [tokens_run_of_goto hgoto (congrArg Emitter.result hstep), hstep, tokens_emit, hc.token_eq]
  rfl

/-- The second step fails. -/
theorem tokens_run_of_goto_of_fail {message : String} {span : Span}
    (hgoto : s.scanNeutral = s.goto c₀ state)
    (hstep : (s.moveTo c₀).step state = (s.moveTo c₀).fail c message span) :
    s.run.tokens = [⟨.error, message, span⟩] := by
  rw [tokens_run_of_goto_of_stop hgoto (congrArg (Prod.fst ∘ Emitter.result) hstep), hstep,
    tokens_fail]

end Steps

/-! ### What becomes of a piece -/

/-- The scan passes over `taken`, the first of the runes `ahead`, makes the tokens `ts` of it, and
is between tokens again. It does so wherever the runes stand, and whatever comes after them, if some
are left or what comes after is inert. -/
structure PassesOver (depths : Bracket → Nat) (ahead : List Char) (ts : List Token)
    (taken rest : List Char) (depths' : Bracket → Nat) : Prop where
  split : ahead = taken ++ rest
  progress : taken ≠ []
  plain : ∀ t ∈ ts, t.kind.isFinal = false
  run : ∀ {s : Scanner} {before more : List Char}, s.Stands before (ahead ++ more) depths →
    rest ≠ [] ∨ Inert more → ∃ s' : Scanner, s'.Stands (before ++ taken) (rest ++ more) depths' ∧
      s.run.tokens = shiftAll (byteLength before) ts ++ s'.run.tokens

/-- The scan fails, wherever the runes stand and whatever comes after them. -/
def Refuses (depths : Bracket → Nat) (ahead : List Char) (e : Token) : Prop :=
  ∀ {s : Scanner} {before more : List Char}, s.Stands before (ahead ++ more) depths →
    s.run.tokens = [e.shift (byteLength before)]

/-- The scan makes the tokens `ts` of the runes wherever they stand, if nothing comes after them. -/
def CutsOff (depths : Bracket → Nat) (ahead : List Char) (ts : List Token) : Prop :=
  ∀ {s : Scanner} {before : List Char}, s.Stands before ahead depths →
    s.run.tokens = shiftAll (byteLength before) ts

/-- The last tokens of a scan that more runes might have gone on with. -/
inductive Unfinished (runes : List Char) : Token → Prop
  | marker (offset : Nat) : Unfinished runes ⟨.endMarker, "", .point offset⟩
  | bracket (offset : Nat) : Unfinished runes ⟨.error, "unclosed bracket", .point offset⟩
  | constant (front constant : List Char) (split : runes = front ++ constant)
      (noLine : '\n' ∉ constant) :
      Unfinished runes ⟨.error, "unterminated character constant",
        ⟨byteLength front, byteLength front + byteLength constant⟩⟩

/-- What can become of the first piece of the runes ahead. -/
inductive Piece (depths : Bracket → Nat) (ahead : List Char) : Prop
  | passed (ts : List Token) (taken rest : List Char) (depths' : Bracket → Nat)
      (passes : PassesOver depths ahead ts taken rest depths')
  | refused (e : Token) (error : e.kind = .error) (refuses : Refuses depths ahead e)
  | cutOff (ts : List Token) (last : Token) (unfinished : Unfinished ahead last)
      (cuts : CutsOff depths ahead (ts ++ [last]))

variable {depths depths' : Bracket → Nat} {ahead taken rest front piece tail : List Char}
  {kind : TokenKind} {r : Char}

/-- A piece that becomes one token. -/
theorem PassesOver.of_token (split : ahead = taken ++ rest) (progress : taken ≠ [])
    (hkind : kind.isFinal = false)
    (hrun : ∀ {s : Scanner} {before more : List Char}, s.Stands before (ahead ++ more) depths →
      rest ≠ [] ∨ Inert more → ∃ s' : Scanner, s'.Stands (before ++ taken) (rest ++ more) depths' ∧
        s.run.tokens = .ofPiece kind (before ++ front) piece :: s'.run.tokens) :
    PassesOver depths ahead [.ofPiece kind front piece] taken rest depths' := by
  refine ⟨split, progress, fun t ht => ?_, fun h hmore => ?_⟩
  · rw [List.mem_singleton.1 ht]
    exact hkind
  -- the token moves along with what stands before it
  · obtain ⟨s', hs', htokens⟩ := hrun h hmore
    refine ⟨s', hs', ?_⟩
    rw [htokens, Token.ofPiece_append]
    rfl

/-! ### White space and single runes -/

/-- White space is passed over and leaves no token. -/
theorem piece_white (hr : isWhite r = true) : Piece depths (r :: tail) := by
  refine .passed [] [r] tail depths ⟨rfl, List.cons_ne_nil r [], fun t ht => ?_, fun h _ => ?_⟩
  · cases ht
  · exact h.white hr

/-- A rune that is a token by itself. -/
theorem piece_single (kind : TokenKind) (hkind : kind.isFinal = false)
    (hstep : ∀ {s : Scanner} {before more : List Char},
      s.Stands before (r :: (tail ++ more)) depths → tail ≠ [] ∨ Inert more →
      s.scanNeutral = s.emit (s.cursor.past r) kind) : Piece depths (r :: tail) := by
  refine .passed [.ofPiece kind [] [r]] [r] tail depths
    (.of_token rfl (List.cons_ne_nil r []) hkind fun {s before more} h hmore => ?_)
  rw [List.append_nil]
  exact h.emits (hstep h hmore) h.holds.past

/-- A rune that ends the scan. -/
theorem piece_failure (message : String)
    (hstep : ∀ {s : Scanner} {before more : List Char},
      s.Stands before (r :: (tail ++ more)) depths →
      s.scanNeutral = s.fail (s.cursor.past r) message (s.cursor.past r).span) :
    Piece depths (r :: tail) := by
  refine .refused ⟨.error, message, ⟨0, byteLength [r]⟩⟩ rfl fun {s before more} h => ?_
  have hstop : s.scanNeutral.result.1 = none := by rw [hstep h, result_fail]
  rw [tokens_run_of_stop hstop, hstep h, tokens_fail, h.holds.past.failure_eq]
  rfl

/-- An opening bracket. -/
theorem piece_opening (b : Bracket) : Piece depths (b.opening :: tail) := by
  refine .passed [.ofPiece .bracketOpen [] [b.opening]] [b.opening] tail
    (Function.update depths b (depths b + 1))
    (.of_token rfl (List.cons_ne_nil _ []) rfl fun {s before more} h _ => ?_)
  rw [List.append_nil]
  exact h.opening b

/-- A closing bracket, whether one of its pair is open or not. -/
theorem piece_closing (b : Bracket) : Piece depths (b.closing :: tail) := by
  cases hdepth : depths b with
  -- a bracket that closes nothing is a failure wherever it stands
  | zero =>
    refine piece_failure ("unexpected character " ++ nameRune b.closing) fun {s _ _} h => ?_
    have hclosing : s.scanNeutral = s.scanClosing (s.cursor.past b.closing) b := by
      rw [scanNeutral, h.holds.head?_eq]
      cases b <;> rfl
    rw [hclosing, scanClosing, h.depth_eq, hdepth]
  | succ n =>
    refine .passed [.ofPiece .bracketClose [] [b.closing]] [b.closing] tail
      (Function.update depths b n)
      (.of_token rfl (List.cons_ne_nil _ []) rfl fun {s before more} h _ => ?_)
    rw [List.append_nil]
    exact h.closing b hdepth

/-! ### Delimited pieces -/

/-- All delimited states search for a closer. -/
theorem Encloses.step_eq {state : ScanState} {form : Delimited} (h : Encloses state form)
    (s : Scanner) : s.step state = s.scanDelimited form := by
  cases h <;> rfl

/-- The opener of a delimited piece leads into its state. -/
theorem Stands.exists_goto {s : Scanner} {before : List Char} {state : ScanState}
    {form : Delimited} (encloses : Encloses state form)
    (h : s.Stands before (state.dropped ++ (state.collected ++ tail)) depths) :
    ∃ c, s.scanNeutral = s.goto c state ∧
      c.Holds (before ++ state.dropped) state.collected tail := by
  have hhead := h.holds.head?_eq
  cases encloses with
  | string =>
    refine ⟨_, ?_, h.holds.past.discard⟩
    rw [scanNeutral, hhead]
    rfl
  | quote =>
    refine ⟨_, ?_, h.holds.past.discard⟩
    rw [scanNeutral, hhead]
    rfl
  -- a comment keeps its opener, so nothing is dropped in front of it
  | lineComment =>
    refine ⟨_, CommentMark.line.scanNeutral_eq hhead h.holds.past.head?_eq, ?_⟩
    show Cursor.Holds _ (before ++ []) _ _
    rw [List.append_nil]
    exact h.holds.past.past
  | blockComment =>
    refine ⟨_, CommentMark.block.scanNeutral_eq hhead h.holds.past.head?_eq, ?_⟩
    show Cursor.Holds _ (before ++ []) _ _
    rw [List.append_nil]
    exact h.holds.past.past

/-- What was read of a delimited piece that is not closed, and the end marker. -/
theorem scanDelimited_lost {s : Scanner} {before : List Char} {c : Cursor} {form : Delimited}
    (hseek : s.cursor.seek form = (false, c)) (hc : c.Holds before piece []) :
    (s.scanDelimited form).result.1 = none ∧ (s.scanDelimited form).tokens =
      (if piece = [] then [] else [.ofPiece form.kind before piece]) ++
        [⟨.endMarker, "", .point (byteLength before + byteLength piece)⟩] := by
  rw [scanDelimited, hseek, ← hc.offset_eq]
  dsimp only
  by_cases hpending : c.hasPending = true
  -- what is pending is what was collected
  · have hne : piece ≠ [] := by
      rintro rfl
      have hlt : c.mark < c.offset := of_decide_eq_true hpending
      rw [hc.mark_eq, hc.offset_eq] at hlt
      exact Nat.lt_irrefl _ hlt
    rw [if_pos hpending, if_neg hne, tokens_emitThen, hc.token_eq]
    exact ⟨rfl, rfl⟩
  · rw [if_neg hpending, if_pos (hc.piece_eq_nil (Bool.not_eq_true _ ▸ hpending))]
    exact ⟨rfl, rfl⟩

/-- A closed delimited piece is one token, whatever comes after it. -/
theorem Stands.delimited {s : Scanner} {before body more : List Char} {state : ScanState}
    {form : Delimited} (encloses : Encloses state form) (hfinds : Cursor.Finds form tail body rest)
    (h : s.Stands before (state.dropped ++ (state.collected ++ (tail ++ more))) depths) :
    ∃ s' : Scanner,
      s'.Stands (before ++ (state.dropped ++ (state.collected ++ (body ++ form.closer))))
        (rest ++ more) depths ∧
      s.run.tokens = .ofPiece form.kind (before ++ state.dropped)
        (state.collected ++ (body ++ if form.keepsCloser then form.closer else [])) ::
          s'.run.tokens := by
  -- first the opener, then everything up to the closer
  obtain ⟨c₀, hgoto, hc₀⟩ := h.exists_goto encloses
  obtain ⟨c, hseek, hc⟩ := hfinds.holds hc₀
  obtain ⟨c', hc', hresult, htokens⟩ := scanDelimited_found (s := s.moveTo c₀) hseek hc
  rw [← encloses.step_eq] at hresult htokens
  refine ⟨s.moveTo c', ⟨?_, ?_, h.quiet⟩, ?_⟩
  · simpa only [cursor_moveTo, List.append_assoc] using hc'
  · funext b
    rw [depth_moveTo, h.depth_eq]
  · rw [tokens_run_of_goto hgoto hresult, htokens, List.append_assoc]
    rfl

/-- A delimited piece whose closer does not come is a token if it is not empty, and the end marker
follows. -/
theorem Stands.cutOff {s : Scanner} {before : List Char} {state : ScanState} {form : Delimited}
    (encloses : Encloses state form) (hlacks : Cursor.Lacks form tail)
    (h : s.Stands before (state.dropped ++ (state.collected ++ tail)) depths) :
    s.run.tokens = (if state.collected ++ tail = [] then [] else
        [.ofPiece form.kind (before ++ state.dropped) (state.collected ++ tail)]) ++
      [⟨.endMarker, "",
        .point (byteLength (before ++ state.dropped) + byteLength (state.collected ++ tail))⟩] := by
  obtain ⟨c₀, hgoto, hc₀⟩ := h.exists_goto encloses
  obtain ⟨c, hseek, hc⟩ := hlacks hc₀
  obtain ⟨hstop, htokens⟩ := scanDelimited_lost (s := s.moveTo c₀) hseek hc
  rw [← encloses.step_eq] at hstop htokens
  rw [tokens_run_of_goto_of_stop hgoto hstop, htokens]

/-- A delimited piece: closed by runes that are there, or cut off. -/
theorem piece_delimited {state : ScanState} {form : Delimited} (encloses : Encloses state form)
    (tail : List Char) : Piece depths (state.dropped ++ (state.collected ++ tail)) := by
  obtain ⟨body, rest, hfinds⟩ | hlacks := Cursor.finds_or_lacks form encloses.closer_ne_nil tail
  · refine .passed [.ofPiece form.kind state.dropped
      (state.collected ++ (body ++ if form.keepsCloser then form.closer else []))]
      (state.dropped ++ (state.collected ++ (body ++ form.closer))) rest depths
      (.of_token ?_ ?_ ?_ fun {s before more} h _ => ?_)
    · rw [hfinds.split]
      simp only [List.append_assoc]
    · cases encloses <;> exact List.cons_ne_nil _ _
    · cases encloses <;> rfl
    · rw [List.append_assoc, List.append_assoc] at h
      exact h.delimited encloses hfinds
  · refine .cutOff (if state.collected ++ tail = [] then [] else
        [.ofPiece form.kind state.dropped (state.collected ++ tail)]) _
      (.marker (byteLength state.dropped + byteLength (state.collected ++ tail)))
      fun {s before} h => ?_
    -- the token, if there is one, and the marker move alike
    rw [h.cutOff encloses hlacks, shiftAll_append, Token.ofPiece_append]
    congr 1
    · split_ifs <;> rfl
    · simp only [shiftAll_cons, shiftAll_nil, Token.shift, Span.shift, Span.point,
        byteLength_append]
      congr 3 <;> omega

/-- A slash that opens no comment is punctuation. -/
theorem Stands.slash {s : Scanner} {before : List Char} (h : s.Stands before ('/' :: ahead) depths)
    (hline : ahead.head? ≠ some '/') (hblock : ahead.head? ≠ some '*') :
    s.scanNeutral = s.emit (s.cursor.past '/') .literal := by
  have hslash : s.scanNeutral = s.scanSlash (s.cursor.past '/') := by
    rw [scanNeutral, h.holds.head?_eq]
    rfl
  rw [hslash, scanSlash, h.holds.past.head?_eq]
  split
  · next hq => exact absurd hq hline
  · next hq => exact absurd hq hblock
  · rfl

/-- White space is no rune that is not white. -/
theorem head?_append_ne {q : Char} {more : List Char} (hq : isWhite q = false)
    (htail : tail.head? ≠ some q) (hmore : tail ≠ [] ∨ Inert more) :
    (tail ++ more).head? ≠ some q := by
  intro hhead
  cases tail with
  | cons r tail => exact htail hhead
  | nil =>
    have hwhite := (hmore.resolve_left fun hne => hne rfl) q hhead
    rw [hq] at hwhite
    cases hwhite

/-- A slash: a comment, or the slash alone. -/
theorem piece_slash : Piece depths ('/' :: tail) := by
  by_cases hline : tail.head? = some '/'
  · obtain ⟨tail, rfl⟩ := List.head?_eq_some_iff.1 hline
    exact piece_delimited .lineComment tail
  by_cases hblock : tail.head? = some '*'
  · obtain ⟨tail, rfl⟩ := List.head?_eq_some_iff.1 hblock
    exact piece_delimited .blockComment tail
  -- white space behind the slash makes no comment of it either
  exact piece_single .literal rfl fun h hmore =>
    h.slash (head?_append_ne (by decide) hline hmore) (head?_append_ne (by decide) hblock hmore)

/-! ### Character constants -/

/-- The opening quote is collected before the constant is read. -/
theorem Stands.goto_char {s : Scanner} {before : List Char}
    (h : s.Stands before ('\'' :: ahead) depths) :
    s.scanNeutral = s.goto (s.cursor.past '\'') .char := by
  rw [scanNeutral, h.holds.head?_eq]
  rfl

/-- A closed character constant is one token. -/
theorem Stands.char {s : Scanner} {before : List Char} {c : Cursor}
    (h : s.Stands before ('\'' :: ahead) depths)
    (hread : (s.cursor.past '\'').readChar = (true, c)) (hc : c.Holds before piece rest) :
    ∃ s' : Scanner, s'.Stands (before ++ piece) rest depths ∧
      s.run.tokens = .ofPiece .char before piece :: s'.run.tokens := by
  have hstep : (s.moveTo (s.cursor.past '\'')).step .char =
      (s.moveTo (s.cursor.past '\'')).emit c .char := by
    show scanChar _ = _
    rw [scanChar, cursor_moveTo, hread]
  exact h.emits_of_goto h.goto_char hstep hc

/-- A character constant that is not closed is an error. -/
theorem Stands.openChar {s : Scanner} {before : List Char} {c : Cursor}
    (h : s.Stands before ('\'' :: ahead) depths)
    (hread : (s.cursor.past '\'').readChar = (false, c)) :
    s.run.tokens = [⟨.error, "unterminated character constant", c.span⟩] := by
  have hstep : (s.moveTo (s.cursor.past '\'')).step .char =
      (s.moveTo (s.cursor.past '\'')).fail c "unterminated character constant" c.span := by
    show scanChar _ = _
    rw [scanChar, cursor_moveTo, hread]
  exact tokens_run_of_goto_of_fail h.goto_char hstep

/-- A character constant is closed, broken by a line feed, or cut off. -/
theorem piece_char : Piece depths ('\'' :: tail) := by
  cases Cursor.readsChar tail with
  | closed taken rest split holds =>
    refine .passed [.ofPiece .char [] ('\'' :: taken)] ('\'' :: taken) rest depths
      (.of_token ?_ (List.cons_ne_nil _ _) rfl fun {s before more} h _ => ?_)
    · rw [split]
      rfl
    · obtain ⟨c, hread, hc⟩ := holds h.holds.past
      rw [List.append_nil]
      exact h.char hread hc
  | broken taken rest split last holds =>
    refine .refused ⟨.error, "unterminated character constant",
      ⟨0, byteLength ('\'' :: taken)⟩⟩ rfl fun {s before more} h => ?_
    obtain ⟨c, hread, hc⟩ := holds h.holds.past
    rw [h.openChar hread, hc.failure_eq]
    rfl
  | cut noLine holds =>
    have hline : '\n' ∉ '\'' :: tail := by
      rw [List.mem_cons, not_or]
      exact ⟨by decide, noLine⟩
    refine .cutOff [] _ (.constant [] ('\'' :: tail) rfl hline) fun {s before} h => ?_
    obtain ⟨c, hread, hc⟩ := holds h.holds.past
    rw [h.openChar hread, hc.failure_eq, byteLength_nil, Nat.zero_add]
    rfl

/-! ### Numbers -/

/-- White space is no word rune, so it ends a number as the end of the source does. -/
theorem solid_isWordRune : Solid isWordRune := solid_of_four (by decide)

/-- Nor does it go on after a sign, -/
theorem solid_continuesSign : Solid continuesSign := solid_of_four (by decide)

/-- or in a word. -/
theorem solid_continuesWord : Solid continuesWord := solid_of_four (by decide)

/-- A number is a token where no word rune follows, -/
theorem scanMagnitude_of_end {s : Scanner} {c : Cursor}
    (h : c.readMagnitude.head?.any isWordRune = false) :
    s.scanMagnitude c = s.emit c.readMagnitude .number := by
  unfold scanMagnitude
  split
  · next q hq =>
    rw [hq, Option.any_some] at h
    rw [h, if_neg Bool.false_ne_true]
  · rfl

/-- and spoiled where one does. -/
theorem scanMagnitude_of_word {s : Scanner} {c : Cursor} {q : Char}
    (hhead : c.readMagnitude.head? = some q) (hq : isWordRune q = true) :
    s.scanMagnitude c = s.fail (c.readMagnitude.past q)
      ("bad number syntax: " ++ quoteText (c.readMagnitude.past q).pending)
      (c.readMagnitude.past q).span := by
  unfold scanMagnitude
  rw [hhead]
  dsimp only
  rw [hq, if_pos rfl]

/-- A digit is always read. -/
theorem taken_ne_nil_of_isDecimal (h : Cursor.Reads Cursor.readMagnitude tail taken rest)
    (hhead : tail.head? = some r) (hr : isDecimal r = true) : taken ≠ [] := by
  rintro rfl
  obtain rfl : tail = rest := h.split
  have hstart : (Cursor.ofSource (String.ofList tail)).Holds [] [] (tail ++ []) := by
    have hnew := Cursor.holds_ofSource (String.ofList tail)
    rw [String.toList_ofList] at hnew
    rwa [List.append_nil]
  have hread := h.holds hstart (.inr inert_nil)
  have hfirst : (Cursor.ofSource (String.ofList tail)).head? = some r := by
    rw [hstart.head?_eq, List.append_nil, hhead]
  have hlt := Cursor.remaining_readMagnitude_lt hfirst hr
  -- but where nothing is taken, nothing less remains
  have hsource : (Cursor.ofSource (String.ofList tail)).readMagnitude.source =
      (Cursor.ofSource (String.ofList tail)).source :=
    String.toList_inj.1 (hread.source_eq.trans hstart.source_eq.symm)
  rw [Cursor.remaining, Cursor.remaining, hsource, hread.offset_eq, hstart.offset_eq] at hlt
  exact Nat.lt_irrefl _ hlt

theorem step_number (s : Scanner) : s.step .number = s.scanNumber := rfl

/-- No digit is a sign. -/
theorem isSign_eq_false_of_isDecimal (hr : isDecimal r = true) : Cursor.isSign r = false := by
  have hword := isWordRune_of_isDecimal hr
  rw [Cursor.isSign, Bool.or_eq_false_iff, beq_eq_false_iff_ne, beq_eq_false_iff_ne]
  exact ⟨ne_of_isWordRune hword (by decide), ne_of_isWordRune hword (by decide)⟩

/-- A sign or a digit is taken for the start of a number. -/
theorem Onset.ofRune_of_number (hr : begins .number r = true) : Onset.ofRune r = .run .number := by
  rw [begins, Bool.or_eq_true] at hr
  obtain hsign | hdecimal := hr
  · rw [Cursor.isSign, Bool.or_eq_true, beq_iff_eq, beq_iff_eq] at hsign
    obtain rfl | rfl := hsign <;> rfl
  · -- the tests made before all ask for runes that are no word runes
    have hword := isWordRune_of_isDecimal hdecimal
    have hlineEnd : ¬ isLineEnd r = true := by
      rw [isLineEnd, Bool.or_eq_true, beq_iff_eq, beq_iff_eq, not_or]
      exact ⟨ne_of_isWordRune hword (by decide), ne_of_isWordRune hword (by decide)⟩
    have hblank : ¬ isBlank r = true := by
      rw [isBlank, Bool.or_eq_true, beq_iff_eq, beq_iff_eq, not_or]
      exact ⟨ne_of_isWordRune hword (by decide), ne_of_isWordRune hword (by decide)⟩
    rw [Onset.ofRune, if_neg hlineEnd, if_neg hblank, if_neg (ne_of_isWordRune hword (by decide)),
      if_neg (ne_of_isWordRune hword (by decide)), if_neg (ne_of_isWordRune hword (by decide)),
      if_neg (ne_of_isWordRune hword (by decide)), if_pos (by rw [hdecimal, Bool.or_true])]

/-- A number is begun without its first rune being read. -/
theorem Stands.goto_number {s : Scanner} {before : List Char}
    (h : s.Stands before (r :: ahead) depths) (hr : begins .number r = true) :
    s.scanNeutral = s.goto s.cursor.settle .number := by
  rw [scanNeutral_eq_scanOnset h.holds.head?_eq, Onset.ofRune_of_number hr]
  rfl

/-- A sign or none, and the runes after it, with which a number begins. -/
inductive Signed : List Char → List Char → Prop
  | absent {r : Char} {tail : List Char} (hr : isDecimal r = true) : Signed [] (r :: tail)
  | present {r : Char} {tail : List Char} (hr : Cursor.isSign r = true)
      (hnext : tail.head?.any continuesSign = true) : Signed [r] tail

/-- Where a number begins, its magnitude is read after its sign. -/
theorem Stands.exists_magnitude {s : Scanner} {before more : List Char}
    (hsigned : Signed piece tail) (h : s.Stands before (piece ++ (tail ++ more)) depths) :
    ∃ c : Cursor, c.Holds before piece (tail ++ more) ∧
      s.scanNeutral = s.goto s.cursor.settle .number ∧
      (s.moveTo s.cursor.settle).step .number = (s.moveTo s.cursor.settle).scanMagnitude c := by
  cases hsigned with
  -- without a sign, a first digit is left for the magnitude
  | @absent r tail hr =>
    have hhead : s.cursor.settle.head? = some r := h.holds.head?_eq
    have haccept : (s.moveTo s.cursor.settle).cursor.accept Cursor.isSign =
        (false, s.cursor.settle.settle) :=
      Cursor.accept_of_not_head hhead (isSign_eq_false_of_isDecimal hr)
    refine ⟨s.cursor.settle.settle, h.holds.settle.settle, h.goto_number ?_, ?_⟩
    · rw [begins, hr, Bool.or_true]
    · rw [step_number, scanNumber_eq haccept, Bool.false_and, if_neg Bool.false_ne_true]
  | @present r _ hr hnext =>
    have hhead : s.cursor.settle.head? = some r := h.holds.head?_eq
    have haccept : (s.moveTo s.cursor.settle).cursor.accept Cursor.isSign =
        (true, s.cursor.settle.past r) := Cursor.accept_of_head hhead hr
    have hpast : (s.cursor.settle.past r).Holds before [r] (tail ++ more) := h.holds.settle.past
    -- behind the sign there is a rune of the number, or it would be a sign alone
    have hcontinues : (s.cursor.settle.past r).head?.any continuesSign = true := by
      rw [hpast.head?_eq]
      cases tail with
      | nil => cases hnext
      | cons q tail => exact hnext
    refine ⟨s.cursor.settle.past r, hpast, h.goto_number ?_, ?_⟩
    · rw [begins, hr, Bool.true_or]
    · rw [step_number, scanNumber_eq haccept, hcontinues, Bool.not_true, Bool.and_false,
        if_neg Bool.false_ne_true]

/-- A number is one token, if no word rune comes directly after it. -/
theorem Stands.number {s : Scanner} {before more : List Char} (hsigned : Signed piece tail)
    (hreads : Cursor.Reads Cursor.readMagnitude tail taken rest)
    (hword : rest.head?.any isWordRune = false) (hmore : rest ≠ [] ∨ Inert more)
    (h : s.Stands before (piece ++ (tail ++ more)) depths) :
    ∃ s' : Scanner, s'.Stands (before ++ (piece ++ taken)) (rest ++ more) depths ∧
      s.run.tokens = .ofPiece .number before (piece ++ taken) :: s'.run.tokens := by
  obtain ⟨c, hc, hgoto, hstep⟩ := h.exists_magnitude hsigned
  have hread := hreads.holds hc hmore
  -- the runes behind the piece decide, or what comes after all of them
  have hend : c.readMagnitude.head?.any isWordRune = false := by
    rw [hread.head?_eq, solid_isWordRune.any_head?_append hmore, hword]
  exact h.emits_of_goto hgoto (hstep.trans (scanMagnitude_of_end hend)) hread

/-- A number whose sign was read, or that has none. -/
theorem piece_magnitude (hsigned : Signed piece tail) : Piece depths (piece ++ tail) := by
  obtain ⟨taken, rest, hreads⟩ := Cursor.local_readMagnitude tail
  cases hword : rest.head?.any isWordRune with
  | false =>
    refine .passed [.ofPiece .number [] (piece ++ taken)] (piece ++ taken) rest depths
      (.of_token ?_ ?_ rfl fun {s before more} h hmore => ?_)
    · rw [hreads.split, List.append_assoc]
    -- a sign is not empty, and without one a digit is taken
    · intro hnil
      obtain ⟨rfl, htaken⟩ := List.append_eq_nil_iff.1 hnil
      cases hsigned with
      | absent hr => exact taken_ne_nil_of_isDecimal hreads rfl hr htaken
    · rw [List.append_assoc] at h
      rw [List.append_nil]
      exact h.number hsigned hreads hword hmore
  | true =>
    -- a word rune comes too early, whatever comes after it
    cases rest with
    | nil => cases hword
    | cons q rest =>
      refine .refused ⟨.error,
        "bad number syntax: " ++ quoteText (String.ofList (piece ++ (taken ++ [q]))),
        ⟨0, byteLength (piece ++ (taken ++ [q]))⟩⟩ rfl fun {s before more} h => ?_
      rw [List.append_assoc] at h
      obtain ⟨c, hc, hgoto, hstep⟩ := h.exists_magnitude hsigned
      have hread := hreads.holds hc (.inl (List.cons_ne_nil q rest))
      have hpast := hread.past
      rw [List.append_assoc] at hpast
      have hspoiled := scanMagnitude_of_word (s := s.moveTo s.cursor.settle) hread.head?_eq hword
      rw [tokens_run_of_goto_of_fail hgoto (hstep.trans hspoiled), hpast.pending_eq,
        hpast.failure_eq]

/-- A sign alone is punctuation. -/
theorem Stands.sign {s : Scanner} {before : List Char} (hr : Cursor.isSign r = true)
    (hnext : ahead.head?.any continuesSign = false) (h : s.Stands before (r :: ahead) depths) :
    ∃ s' : Scanner, s'.Stands (before ++ [r]) ahead depths ∧
      s.run.tokens = .ofPiece .literal before [r] :: s'.run.tokens := by
  have hbegins : begins .number r = true := by rw [begins, hr, Bool.true_or]
  have hhead : s.cursor.settle.head? = some r := h.holds.head?_eq
  have haccept : (s.moveTo s.cursor.settle).cursor.accept Cursor.isSign =
      (true, s.cursor.settle.past r) := Cursor.accept_of_head hhead hr
  have hpast : (s.cursor.settle.past r).Holds before [r] ahead := h.holds.settle.past
  have hstep : (s.moveTo s.cursor.settle).step .number =
      (s.moveTo s.cursor.settle).emit (s.cursor.settle.past r) .literal := by
    rw [step_number, scanNumber_eq haccept, hpast.head?_eq, hnext, Bool.not_false, Bool.and_true,
      if_pos rfl]
  exact h.emits_of_goto (h.goto_number hbegins) hstep hpast

/-- A sign or a digit: a number, a sign alone, or a number that is spoiled. -/
theorem piece_number (hr : begins .number r = true) : Piece depths (r :: tail) := by
  cases hsign : Cursor.isSign r with
  | false =>
    have hdecimal : isDecimal r = true := by
      rwa [begins, hsign, Bool.false_or] at hr
    exact piece_magnitude (.absent hdecimal)
  | true =>
    cases hnext : tail.head?.any continuesSign with
    | true => exact piece_magnitude (.present hsign hnext)
    | false =>
      refine .passed [.ofPiece .literal [] [r]] [r] tail depths
        (.of_token rfl (List.cons_ne_nil r []) rfl fun {s before more} h hmore => ?_)
      rw [List.append_nil]
      refine Stands.sign hsign ?_ h
      rw [solid_continuesSign.any_head?_append hmore, hnext]

/-! ### Words -/

/-- White space ends a word as the end of the source does. -/
theorem all_endsWord_of_isWhite (q : Char) (hq : isWhite q = true) :
    (some q).all endsWord = (none : Option Char).all endsWord := by
  obtain rfl | rfl | rfl | rfl := isWhite_cases hq <;> decide

/-- A word is a token where it may end, -/
theorem scanWord_of_end {s : Scanner}
    (h : (s.cursor.skip continuesWord).head?.all endsWord = true) :
    s.scanWord = s.emit (s.cursor.skip continuesWord)
      (.ofWord (s.cursor.skip continuesWord).pending) := by
  unfold scanWord
  dsimp only
  split
  · rfl
  · next q hq =>
    rw [hq, Option.all_some] at h
    rw [h, if_pos rfl]

/-- and where it may not, the rune behind it is the failure. -/
theorem scanWord_of_stop {s : Scanner} {q : Char}
    (hhead : (s.cursor.skip continuesWord).head? = some q) (hq : endsWord q = false) :
    s.scanWord = s.fail (s.cursor.skip continuesWord) ("unexpected character " ++ nameRune q)
      ⟨(s.cursor.skip continuesWord).offset,
        (s.cursor.skip continuesWord).offset + q.utf8Size⟩ := by
  unfold scanWord
  dsimp only
  rw [hhead]
  dsimp only
  rw [hq, if_neg Bool.false_ne_true]

theorem step_word (s : Scanner) : s.step .word = s.scanWord := rfl

/-- A word: what comes after it may stand there, or ends the scan. -/
theorem piece_word (hr : begins .word r = true) (honset : Onset.ofRune r = .run .word) :
    Piece depths (r :: tail) := by
  have hgoto : ∀ {s : Scanner} {before ahead : List Char}, s.Stands before (r :: ahead) depths →
      s.scanNeutral = s.goto s.cursor.settle .word := by
    intro s before ahead h
    rw [scanNeutral_eq_scanOnset h.holds.head?_eq, honset]
    rfl
  have hfirst : continuesWord r = true := by
    rw [begins, Bool.and_eq_true] at hr
    rw [continuesWord, hr.1, Bool.true_or]
  -- the word is `r` and the run of runes behind it
  obtain ⟨runes, hrunes⟩ : ∃ runes, runes = tail.takeWhile continuesWord := ⟨_, rfl⟩
  obtain ⟨rest, hrest⟩ : ∃ rest, rest = tail.dropWhile continuesWord := ⟨_, rfl⟩
  have hskip : ∀ {s : Scanner} {before more : List Char},
      s.Stands before (r :: (tail ++ more)) depths → rest ≠ [] ∨ Inert more →
      (s.cursor.settle.skip continuesWord).Holds before (r :: runes) (rest ++ more) := by
    intro s before more h hmore
    rw [hrest] at hmore
    obtain ⟨htake, hdrop⟩ := solid_continuesWord.takeWhile_append hmore
    have hword := h.holds.settle.skip continuesWord
    rw [List.takeWhile_cons_of_pos hfirst, List.dropWhile_cons_of_pos hfirst, htake, hdrop,
      ← hrunes, ← hrest] at hword
    exact hword
  cases hend : rest.head?.all endsWord with
  | true =>
    refine .passed [.ofPiece (.ofWord (String.ofList (r :: runes))) [] (r :: runes)] (r :: runes)
      rest depths (.of_token ?_ (List.cons_ne_nil r runes) ?_ fun {s before more} h hmore => ?_)
    · rw [hrunes, hrest, List.cons_append, List.takeWhile_append_dropWhile]
    · exact TokenKind.isFinal_of_isWhole (TokenKind.isWhole_ofWord _)
    · have hword := hskip h hmore
      -- white space may stand after a word, like the end
      have hnext : (s.cursor.settle.skip continuesWord).head?.all endsWord = true := by
        rw [hword.head?_eq, key_head?_append (·.all endsWord) all_endsWord_of_isWhite hmore, hend]
      have hstep : (s.moveTo s.cursor.settle).step .word =
          (s.moveTo s.cursor.settle).emit (s.cursor.settle.skip continuesWord)
            (.ofWord (String.ofList (r :: runes))) := by
        rw [step_word, ← hword.pending_eq]
        exact scanWord_of_end hnext
      rw [List.append_nil]
      exact h.emits_of_goto (hgoto h) hstep hword
  -- the rune behind the word is there, so nothing after it matters
  | false =>
    cases rest with
    | nil => cases hend
    | cons q rest =>
      have hq : endsWord q = false := hend
      refine .refused ⟨.error, "unexpected character " ++ nameRune q,
        ⟨byteLength (r :: runes), byteLength (r :: runes) + q.utf8Size⟩⟩ rfl
        fun {s before more} h => ?_
      have hword := hskip h (.inl (List.cons_ne_nil q rest))
      have hstep := scanWord_of_stop (s := s.moveTo s.cursor.settle) hword.head?_eq hq
      rw [tokens_run_of_goto_of_fail (hgoto h) hstep, cursor_moveTo, hword.offset_eq]
      simp only [Token.shift, Span.shift]
      congr 3 <;> omega

/-! ### Every piece -/

/-- **Every piece is one of these**, and which one is decided by the runes ahead. -/
theorem exists_piece (depths : Bracket → Nat) (hne : ahead ≠ []) : Piece depths ahead := by
  cases ahead with
  | nil => exact absurd rfl hne
  | cons r tail =>
    -- the first rune decides what to look for
    have hsuits := Onset.suits_ofRune r
    cases honset : Onset.ofRune r with
    | run next =>
      rw [honset] at hsuits
      cases next with
      | blanks =>
        have hblank : isBlank r = true := hsuits
        exact piece_white (by rw [isWhite, hblank, Bool.true_or])
      | lineEnds =>
        have hlineEnd : isLineEnd r = true := hsuits
        exact piece_white (by rw [isWhite, hlineEnd, Bool.or_true])
      | number => exact piece_number hsuits
      | word => exact piece_word hsuits honset
      | _ => cases hsuits
    | quoted next =>
      rw [honset] at hsuits
      cases hsuits with
      | string => exact piece_delimited .string tail
      | quote => exact piece_delimited .quote tail
    | char =>
      rw [honset] at hsuits
      obtain rfl : r = '\'' := hsuits
      exact piece_char
    | slash =>
      rw [honset] at hsuits
      obtain rfl : r = '/' := hsuits
      exact piece_slash
    | opening b =>
      rw [honset] at hsuits
      obtain rfl : r = b.opening := hsuits
      exact piece_opening b
    | closing b =>
      rw [honset] at hsuits
      obtain rfl : r = b.closing := hsuits
      exact piece_closing b
    | literal =>
      refine piece_single .literal rfl fun h _ => ?_
      rw [scanNeutral_eq_scanOnset h.holds.head?_eq, honset]
      rfl
    | unknown =>
      refine piece_failure ("unrecognized character " ++ nameRune r) fun h => ?_
      rw [scanNeutral_eq_scanOnset h.holds.head?_eq, honset]
      rfl

end Scanner

end DeclFront
