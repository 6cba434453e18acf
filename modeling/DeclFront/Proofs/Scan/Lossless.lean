import DeclFront.Proofs.Scan.Position

/-!
# What is kept of a source

A scan that reports white space loses nothing: the tokens, written out one after another, are the
source again. A few runes are left out of the tokens and come back when they are written out
(`Token.render`): the quotes of a string and of a backtick quote, and the line feed after a line
comment.

At every moment of a scan the source is in three parts: what the tokens so far render to, what a
state has dropped and collected since then, and what is still ahead (`Scanner.Kept`). Every step
keeps this, or ends the scan in one of four ways (`Ends`).
-/

namespace DeclFront

/-! ### Writing tokens out -/

/-- The text of a token with what was left out of it: its quotes, or the end of its line. -/
def Token.render (t : Token) : String :=
  match t.kind with
  | .string => "\"" ++ t.text ++ "\""
  | .quote => "`" ++ t.text ++ "`"
  | .comment => if ['/', '/'].isPrefixOf t.text.toList then t.text ++ "\n" else t.text
  | _ => t.text

/-- Tokens written out one after another. -/
def renderAll (ts : List Token) : String :=
  String.join (ts.map Token.render)

/-- What opens a token of the kind without being part of it. -/
def TokenKind.openQuote : TokenKind → String
  | string => "\""
  | quote => "`"
  | _ => ""

/-- Whether the tokens of a kind are made of source text, with nothing left out. -/
def TokenKind.isWhole : TokenKind → Bool
  | string | quote | comment | error | endMarker => false
  | _ => true

/-- Tokens are written out one part after the other. -/
theorem renderAll_append (ts us : List Token) :
    renderAll (ts ++ us) = renderAll ts ++ renderAll us := by
  rw [renderAll, List.map_append, String.join_append]
  rfl

/-- A single token, written out. -/
theorem renderAll_singleton (t : Token) : renderAll [t] = t.render := by
  rw [renderAll, List.map_singleton, String.join_cons, String.join_nil, String.append_empty]

/-- A token that is whole is written out as it is. -/
theorem Token.render_of_isWhole {t : Token} (h : t.kind.isWhole = true) : t.render = t.text := by
  unfold Token.render
  split
  · next hkind => rw [hkind] at h; cases h
  · next hkind => rw [hkind] at h; cases h
  · next hkind => rw [hkind] at h; cases h
  · rfl

/-- A comment is written out with its line feed, if it is one of a line. -/
theorem Token.render_of_comment {t : Token} (h : t.kind = .comment) :
    t.render = if ['/', '/'].isPrefixOf t.text.toList then t.text ++ "\n" else t.text := by
  rw [Token.render, h]

/-- A token of source text ends no scan. -/
theorem TokenKind.isFinal_of_isWhole {kind : TokenKind} (h : kind.isWhole = true) :
    kind.isFinal = false := by
  cases kind with
  | error | endMarker => cases h
  | _ => rfl

/-- Words are whole. -/
theorem TokenKind.isWhole_ofWord (word : String) : (TokenKind.ofWord word).isWhole = true := by
  unfold ofWord
  split
  · rfl
  · split_ifs <;> rfl

/-- A text begins with each of its beginnings. -/
theorem append_ne_of_front {front rest text : String} (h : ¬ front.toList <+: text.toList) :
    front ++ rest ≠ text := by
  rintro rfl
  rw [String.toList_append] at h
  exact h (List.prefix_append _ _)

/-- A cursor that holds nothing has nothing pending. -/
theorem Cursor.Holds.piece_eq_nil {c : Cursor} {before piece ahead : List Char}
    (h : c.Holds before piece ahead) (hpending : c.hasPending = false) : piece = [] := by
  have hle : ¬ c.mark < c.offset := of_decide_eq_false hpending
  rw [h.mark_eq, h.offset_eq] at hle
  cases piece with
  | nil => rfl
  | cons r piece =>
    have hpos := Char.utf8Size_pos r
    rw [byteLength_cons] at hle
    omega

/-! ### The parts of a source during a scan -/

/-- What a state has dropped from the tokens. -/
def ScanState.dropped : ScanState → List Char
  | string => ['"']
  | quote => ['\x60']
  | _ => []

/-- What a state has collected when it is entered. -/
def ScanState.collected : ScanState → List Char
  | char => ['\'']
  | lineComment => ['/', '/']
  | blockComment => ['/', '*']
  | _ => []

namespace Scanner

/-- The scan reports white space, and the source is what was rendered so far, then what the state
has dropped and collected, then what is ahead. -/
structure Kept (source : String) (rendered : List Char) (s : Scanner) (state : ScanState) :
    Prop where
  source_eq : s.cursor.source = source
  reports : s.options.keepTrivia = true
  holds : ∃ ahead, s.cursor.Holds (rendered ++ state.dropped) state.collected ahead

/-- The ways in which a scan can end when `rendered` has been rendered of the source, each with the
tokens that are sent at last. -/
inductive Ends (source : String) (rendered : List Char) : List Token → Prop
  /-- Everything was rendered. -/
  | finish (whole : source.toList = rendered) : Ends source rendered []
  /-- The source ended inside a delimited piece `u`. -/
  | cut (u last : Token) (kind : u.kind = .string ∨ u.kind = .quote ∨ u.kind = .comment)
      (marker : last.kind = .endMarker)
      (whole : source.toList = rendered ++ u.kind.openQuote.toList ++ u.text.toList) :
      Ends source rendered [u, last]
  /-- The source ended after the opening quote of a delimited piece. -/
  | cutEmpty (quote : Char) (last : Token) (mark : quote = '"' ∨ quote = '\x60')
      (marker : last.kind = .endMarker) (whole : source.toList = rendered ++ [quote]) :
      Ends source rendered [last]
  /-- There was a failure; only for an unclosed bracket was everything rendered for certain. -/
  | fail (e : Token) (error : e.kind = .error) (part : rendered <+: source.toList)
      (whole : e.text = "unclosed bracket" → source.toList = rendered) : Ends source rendered [e]

/-- What becomes of a scan by one step: it goes on with its tokens rendered, or ends. -/
def Keeps (source : String) (rendered : List Char) (step : ScanStep) : Prop :=
  match step.result with
  | (some next, s') => (∀ t ∈ step.tokens, t.kind.isFinal = false) ∧
      Kept source (rendered ++ (renderAll step.tokens).toList) s' next
  | (none, _) => Ends source rendered step.tokens

section Keeps

variable {source : String} {rendered piece ahead : List Char} {s : Scanner} {c : Cursor}
  {state next : ScanState} {kind : TokenKind}

/-- What was rendered is a beginning of the source. -/
theorem Kept.part (h : Kept source rendered s state) : rendered <+: source.toList := by
  obtain ⟨ahead, hc⟩ := h.holds
  rw [← h.source_eq, hc.source_eq, List.append_assoc]
  exact List.prefix_append _ _

/-- Between tokens nothing is dropped or collected. -/
theorem Kept.between (h : Kept source rendered s .neutral) :
    ∃ ahead, s.cursor.Holds rendered [] ahead := by
  obtain ⟨ahead, hc⟩ := h.holds
  refine ⟨ahead, ?_⟩
  rw [← List.append_nil rendered]
  exact hc

/-- Between tokens, where nothing is ahead, everything was rendered. -/
theorem Kept.whole (h : Kept source rendered s .neutral) (hhead : s.cursor.head? = none) :
    source.toList = rendered := by
  obtain ⟨ahead, hc⟩ := h.between
  rw [hc.head?_eq, List.head?_eq_none_iff] at hhead
  rw [← h.source_eq, hc.source_eq, hhead, List.append_nil, List.append_nil]

/-- Going on to a state that has dropped and collected what was read since the mark. -/
theorem keeps_goto (hsource : c.source = source) (hreports : s.options.keepTrivia = true)
    (hc : c.Holds (rendered ++ next.dropped) next.collected ahead) :
    Keeps source rendered (s.goto c next) := by
  refine ⟨fun t ht => ?_, hsource, hreports, ahead, ?_⟩
  · cases ht
  · rw [tokens_goto]
    show c.Holds (rendered ++ [] ++ next.dropped) _ _
    rwa [List.append_nil]

/-- A token that renders to what it is made of, and what was dropped around it. -/
theorem keeps_emit_of_render {before : List Char} (hsource : c.source = source)
    (hreports : s.options.keepTrivia = true) (hc : c.Holds before piece ahead)
    (hkind : kind.isFinal = false)
    (hrender : rendered ++ (Token.render ⟨kind, c.pending, c.span⟩).toList = before ++ piece) :
    Keeps source rendered (s.emit c kind) := by
  refine ⟨fun t ht => ?_, hsource, hreports, ahead, ?_⟩
  · rw [tokens_emit, List.mem_singleton] at ht
    rw [ht]
    exact hkind
  · rw [tokens_emit, renderAll_singleton, hrender]
    show c.discard.Holds (before ++ piece ++ []) [] ahead
    rw [List.append_nil]
    exact hc.discard

/-- A token with its whole text in it, made of all that was read. -/
theorem Kept.keeps_emit (h : Kept source rendered s state) (hdropped : state.dropped = [])
    (hextends : s.cursor.Extends c) (hwhole : kind.isWhole = true) :
    Keeps source rendered (s.emit c kind) := by
  obtain ⟨ahead, hc⟩ := h.holds
  rw [hdropped, List.append_nil] at hc
  obtain ⟨taken, rest, rfl, hc'⟩ := hextends hc
  have hsource : c.source = source := (Cursor.Onward.of_holds hc hc').source_eq.trans h.source_eq
  refine keeps_emit_of_render hsource h.reports hc' (TokenKind.isFinal_of_isWhole hwhole) ?_
  rw [Token.render_of_isWhole hwhole, hc'.pending_eq, String.toList_ofList]

/-- A failure other than that of an unclosed bracket. -/
theorem Kept.keeps_fail (h : Kept source rendered s state) {message : String} {span : Span}
    (hmessage : message ≠ "unclosed bracket") : Keeps source rendered (s.fail c message span) :=
  .fail _ rfl h.part fun htext => absurd htext hmessage

/-- A token whose closing delimiter is left behind. -/
theorem keeps_close {before closer : List Char} (hsource : c.source = source)
    (hreports : s.options.keepTrivia = true) (hc : c.Holds before piece (closer ++ ahead))
    (hkind : kind.isFinal = false)
    (hrender : rendered ++ (Token.render ⟨kind, c.pending, c.span⟩).toList =
      before ++ piece ++ closer) :
    Keeps source rendered (s.emitThen c kind fun s =>
      s.goto (s.cursor.jump (byteLength closer)).discard .neutral) := by
  have hjump := hc.discard.jump.discard
  refine ⟨fun t ht => ?_, hsource, hreports, ahead, ?_⟩
  · rw [tokens_emitThen, tokens_goto, List.mem_singleton] at ht
    rw [ht]
    exact hkind
  · rw [tokens_emitThen, tokens_goto, renderAll_singleton, hrender]
    show (c.discard.jump _).discard.Holds (before ++ piece ++ closer ++ []) [] ahead
    rwa [List.append_nil]

/-- A piece that keeps its closer is a block comment, and is written out as it is. -/
theorem Kept.keeps_closeKept (h : Kept source rendered s state) {form : Delimited}
    (encloses : Encloses state form) (hseek : s.cursor.seek form = (true, c))
    (hkeeps : form.keepsCloser = true) :
    Keeps source rendered (s.emit (c.jump (byteLength form.closer)) form.kind) := by
  obtain ⟨ahead, hc⟩ := h.holds
  obtain ⟨body, rest, rfl, hc'⟩ := hc.of_seek_found encloses.closer_ne_nil hseek
  -- the source is the same before and after the closer was looked for
  have hsource : c.source = source := (Cursor.Onward.of_holds hc hc').source_eq.trans h.source_eq
  -- block comments are the only form that keeps its closer
  cases encloses with
  | string | quote | lineComment => cases hkeeps
  | blockComment =>
    have htext : (c.jump (byteLength Delimited.blockComment.closer)).pending.toList =
        '/' :: '*' :: (body ++ Delimited.blockComment.closer) := by
      rw [hc'.jump.pending_eq, String.toList_ofList, List.append_assoc]
      rfl
    refine keeps_emit_of_render hsource h.reports hc'.jump rfl ?_
    -- the star after the slash tells it from a line comment
    have hblock : ¬ ['/', '/'].isPrefixOf
        ('/' :: '*' :: (body ++ Delimited.blockComment.closer)) = true := Bool.false_ne_true
    rw [Token.render_of_comment rfl, htext, if_neg hblock, htext]
    simp only [ScanState.dropped, List.append_nil, List.append_assoc]
    rfl

/-- A piece that drops its closer gets it back where it is written out. -/
theorem Kept.keeps_closeDropped (h : Kept source rendered s state) {form : Delimited}
    (encloses : Encloses state form) (hseek : s.cursor.seek form = (true, c))
    (hkeeps : form.keepsCloser = false) :
    Keeps source rendered (s.emitThen c form.kind fun s =>
      s.goto (s.cursor.jump (byteLength form.closer)).discard .neutral) := by
  obtain ⟨ahead, hc⟩ := h.holds
  obtain ⟨body, rest, rfl, hc'⟩ := hc.of_seek_found encloses.closer_ne_nil hseek
  have hsource : c.source = source := (Cursor.Onward.of_holds hc hc').source_eq.trans h.source_eq
  have htext : c.pending.toList = state.collected ++ body := by
    rw [hc'.pending_eq, String.toList_ofList]
  cases encloses with
  -- the quotes come back on both sides
  | string =>
    refine keeps_close hsource h.reports hc' rfl ?_
    show rendered ++ ("\"" ++ c.pending ++ "\"").toList = _
    rw [String.toList_append, String.toList_append, htext]
    simp only [List.append_assoc]
    rfl
  | quote =>
    refine keeps_close hsource h.reports hc' rfl ?_
    show rendered ++ ("`" ++ c.pending ++ "`").toList = _
    rw [String.toList_append, String.toList_append, htext]
    simp only [List.append_assoc]
    rfl
  | lineComment =>
    refine keeps_close hsource h.reports hc' rfl ?_
    -- its two slashes show that a line feed was left behind
    have hline : ['/', '/'].isPrefixOf (ScanState.lineComment.collected ++ body) = true := rfl
    rw [Token.render_of_comment rfl, htext, if_pos hline, String.toList_append, htext]
    simp only [ScanState.dropped, List.append_nil, List.append_assoc]
    rfl
  | blockComment => cases hkeeps

/-- A piece that is cut off is the last token before the end marker. -/
theorem Kept.keeps_cut (h : Kept source rendered s state) {form : Delimited}
    (encloses : Encloses state form) (hseek : s.cursor.seek form = (false, c)) :
    Keeps source rendered (s.emitThen c form.kind fun s => s.emitEnd s.cursor) := by
  obtain ⟨ahead, hc⟩ := h.holds
  have hc' := hc.of_seek_lost encloses.closer_ne_nil hseek
  -- all delimited pieces are strings, backtick quotes or comments
  have hkind : form.kind = .string ∨ form.kind = .quote ∨ form.kind = .comment := by
    cases encloses <;> decide
  have hquote : form.kind.openQuote.toList = state.dropped := by
    cases encloses <;> decide
  refine .cut _ _ hkind rfl ?_
  show source.toList = rendered ++ form.kind.openQuote.toList ++ c.pending.toList
  rw [hquote, hc'.pending_eq, String.toList_ofList, ← h.source_eq, hc.source_eq]

/-- A quote after which nothing comes leaves no token behind. -/
theorem Kept.keeps_cutEmpty (h : Kept source rendered s state) {form : Delimited}
    (encloses : Encloses state form) (hseek : s.cursor.seek form = (false, c))
    (hpending : c.hasPending = false) : Keeps source rendered (s.emitEnd c) := by
  obtain ⟨ahead, hc⟩ := h.holds
  have hc' := hc.of_seek_lost encloses.closer_ne_nil hseek
  have hnone : state.collected ++ ahead = [] := hc'.piece_eq_nil hpending
  have hwhole : source.toList = rendered ++ state.dropped := by
    rw [← h.source_eq, hc.source_eq, hnone, List.append_nil]
  -- a comment has its opener collected, so only quoted pieces can be empty
  cases encloses with
  | string => exact .cutEmpty '"' _ (.inl rfl) rfl hwhole
  | quote => exact .cutEmpty '\x60' _ (.inr rfl) rfl hwhole
  | lineComment | blockComment => cases hnone

/-- Counting brackets changes nothing else. -/
theorem Kept.setDepth (h : Kept source rendered s state) (b : Bracket) (n : Nat) :
    Kept source rendered (s.setDepth b n) state := by
  obtain ⟨hsource, hreports, hholds⟩ := h
  refine ⟨?_, ?_, ?_⟩
  · rwa [cursor_setDepth]
  · rwa [options_setDepth]
  · rwa [cursor_setDepth]

/-- A bracket is a token, whatever is counted. -/
theorem Kept.keeps_bracket (h : Kept source rendered s .neutral) {r : Char}
    (hhead : s.cursor.head? = some r) (b : Bracket) (n : Nat) (hwhole : kind.isWhole = true) :
    Keeps source rendered ((s.setDepth b n).emit (s.cursor.past r) kind) := by
  refine (h.setDepth b n).keeps_emit rfl ?_ hwhole
  rw [cursor_setDepth]
  exact .past hhead

/-- **One step keeps the source.** -/
theorem Kept.step (h : Kept source rendered s state) : Keeps source rendered (s.step state) := by
  -- by what the step does: go on, emit a piece, or end
  have hdoes := does_step s state
  generalize s.step state = step at hdoes ⊢
  cases hdoes with
  | finish hhead => exact .finish (h.whole hhead)
  | unclosed hhead => exact .fail _ rfl h.part fun _ => h.whole hhead
  | @beginRun _ next hhead hr =>
    obtain ⟨ahead, hc⟩ := h.holds
    cases next with
    | blanks | lineEnds | number | word => exact keeps_goto h.source_eq h.reports hc.settle
    | _ => cases hr
  | beginQuoted hhead mark =>
    obtain ⟨ahead, hc⟩ := h.between
    obtain ⟨rest, rfl⟩ := hc.exists_cons hhead
    cases mark with
    | string | quote => exact keeps_goto h.source_eq h.reports hc.past.discard
  | beginChar hhead =>
    obtain ⟨ahead, hc⟩ := h.holds
    obtain ⟨rest, rfl⟩ := hc.exists_cons hhead
    exact keeps_goto h.source_eq h.reports hc.past
  | beginComment hhead hmark mark =>
    obtain ⟨ahead, hc⟩ := h.holds
    obtain ⟨rest, rfl⟩ := hc.exists_cons hhead
    obtain ⟨rest, rfl⟩ := hc.past.exists_cons hmark
    cases mark with
    | line | block => exact keeps_goto h.source_eq h.reports hc.past.past
  | slash hhead | literal hhead => exact h.keeps_emit rfl (.past hhead) rfl
  | opening hhead | closing hhead => exact h.keeps_bracket hhead _ _ rfl
  | stray | unknown | badNumber | badWord =>
    exact h.keeps_fail (append_ne_of_front (by decide))
  | report collects => cases collects <;> exact h.keeps_emit rfl (.skip _ _) rfl
  | pass _ hkeeps =>
    rw [h.reports] at hkeeps
    cases hkeeps
  | closeKept encloses hseek hkeeps => exact h.keeps_closeKept encloses hseek hkeeps
  | closeDropped encloses hseek hkeeps => exact h.keeps_closeDropped encloses hseek hkeeps
  -- the closer does not come
  | cut encloses hseek => exact h.keeps_cut encloses hseek
  | cutEmpty encloses hseek hpending => exact h.keeps_cutEmpty encloses hseek hpending
  | char hread => exact h.keeps_emit rfl (.readChar hread) rfl
  | badChar => exact h.keeps_fail (by decide)
  | sign haccept => exact h.keeps_emit rfl (.accept Cursor.solid_isSign haccept) rfl
  | number haccept =>
    -- a number is its sign, if any, and what was read after it
    have hread := (Cursor.Extends.accept Cursor.solid_isSign haccept).trans
      (.op Cursor.local_readMagnitude _)
    exact h.keeps_emit rfl hread rfl
  | word => exact h.keeps_emit rfl (.skip _ _) (TokenKind.isWhole_ofWord _)

/-- **A scan keeps the source.** Its tokens are some that are rendered, then those of its end. -/
theorem Kept.run (h : Kept source rendered s state) (hready : s.Ready state) :
    ∃ ts last, (s.runFrom state).tokens = ts ++ last ∧ (∀ t ∈ ts, t.kind.isFinal = false) ∧
      Ends source (rendered ++ (renderAll ts).toList) last := by
  -- on the weight, which every step lessens
  obtain ⟨n, hn⟩ : ∃ n, n = s.weight state := ⟨_, rfl⟩
  induction n using Nat.strongRecOn generalizing s state rendered with
  | _ n ih =>
    have hkeeps := h.step
    unfold Keeps at hkeeps
    cases hresult : (s.step state).result with
    | mk next s' =>
      rw [hresult] at hkeeps
      cases next with
      | none =>
        have hstop : (s.step state).result.1 = none := by rw [hresult]
        refine ⟨[], (s.step state).tokens, ?_, fun t ht => ?_, ?_⟩
        · rw [tokens_runFrom_of_stop hready hstop, List.nil_append]
        · cases ht
        · show Ends source (rendered ++ []) _
          rw [List.append_nil]
          exact hkeeps
      | some next =>
        obtain ⟨hfirst, hkept⟩ := hkeeps
        obtain ⟨hready', hlt⟩ := hready.step next s' hresult
        obtain ⟨ts, last, htokens, hrest, hends⟩ := ih _ (hn ▸ hlt) hkept hready' rfl
        refine ⟨(s.step state).tokens ++ ts, last, ?_, fun t ht => ?_, ?_⟩
        · rw [tokens_runFrom_of_next hready hresult, htokens, List.append_assoc]
        · obtain ht | ht := List.mem_append.1 ht
          · exact hfirst t ht
          · exact hrest t ht
        · rwa [renderAll_append, String.toList_append, ← List.append_assoc]

end Keeps

/-- At the start nothing is rendered, and everything is ahead. -/
theorem kept_ofSource (source : String) : Kept source [] (ofSource source ⟨true⟩) .neutral :=
  ⟨rfl, rfl, source.toList, Cursor.holds_ofSource source⟩

/-! ### The last token tells how a scan ended -/

namespace Ends

variable {source : String} {rendered : List Char} {us ts ending : List Token} {last : Token}

/-- A scan without a last token of its own has rendered everything. -/
theorem whole_or_exists_final (h : Ends source rendered ending) :
    (ending = [] ∧ source.toList = rendered) ∨ ∃ t ∈ ending, t.kind.isFinal = true := by
  cases h with
  | finish whole => exact .inl ⟨rfl, whole⟩
  | cut u last kind marker =>
    refine .inr ⟨last, List.mem_cons_of_mem u (List.mem_singleton_self last), ?_⟩
    rw [marker]
    rfl
  | cutEmpty quote last mark marker =>
    refine .inr ⟨last, List.mem_singleton_self last, ?_⟩
    rw [marker]
    rfl
  | fail e error =>
    refine .inr ⟨e, List.mem_singleton_self e, ?_⟩
    rw [error]
    rfl

/-- The tokens that are rendered do not end with a failure or an end marker. -/
theorem ne_nil (hplain : ∀ t ∈ us, t.kind.isFinal = false) (heq : us ++ ending = ts ++ [last])
    (hlast : last.kind.isFinal = true) : ending ≠ [] := by
  rintro rfl
  rw [List.append_nil] at heq
  subst heq
  have hnot := hplain last List.mem_concat_self
  rw [hlast] at hnot
  cases hnot

/-- Before an end marker there is a quote that opens nothing, or a piece that was cut off. -/
theorem of_endMarker (h : Ends source (renderAll us).toList ending) (hnil : ending ≠ [])
    (heq : us ++ ending = ts ++ [last]) (hlast : last.kind = .endMarker) :
    (source = renderAll ts ++ "\"" ∨ source = renderAll ts ++ "`") ∨
      ∃ front u, ts = front ++ [u] ∧ (u.kind = .string ∨ u.kind = .quote ∨ u.kind = .comment) ∧
        source = renderAll front ++ u.kind.openQuote ++ u.text := by
  cases h with
  | finish => exact absurd rfl hnil
  | cut u marker kind _ whole =>
    -- the piece is the last token but one
    have hsplit : us ++ [u] ++ [marker] = ts ++ [last] := by
      rw [← heq, List.append_assoc]
      rfl
    obtain ⟨hts, -⟩ := List.append_inj' hsplit rfl
    refine .inr ⟨us, u, hts.symm, kind, String.toList_inj.1 ?_⟩
    rw [String.toList_append, String.toList_append]
    exact whole
  | cutEmpty quote marker mark _ whole =>
    obtain ⟨rfl, -⟩ := List.append_inj' heq rfl
    have hsource : source = renderAll us ++ String.singleton quote := by
      rw [← String.toList_inj, String.toList_append, String.toList_singleton]
      exact whole
    obtain rfl | rfl := mark
    · exact .inl (.inl hsource)
    · exact .inl (.inr hsource)
  | fail e error =>
    obtain ⟨-, he⟩ := List.append_inj' heq rfl
    rw [← List.singleton_inj.1 he, error] at hlast
    cases hlast

/-- Before a failure a beginning of the source was rendered, and all of it if a bracket is open. -/
theorem of_error (h : Ends source (renderAll us).toList ending) (hnil : ending ≠ [])
    (heq : us ++ ending = ts ++ [last]) (hlast : last.kind = .error) :
    (∃ rest, source = renderAll ts ++ rest) ∧
      (last.text = "unclosed bracket" → source = renderAll ts) := by
  cases h with
  | finish => exact absurd rfl hnil
  | cut u marker kind hmarker =>
    have hsplit : us ++ [u] ++ [marker] = ts ++ [last] := by
      rw [← heq, List.append_assoc]
      rfl
    obtain ⟨-, he⟩ := List.append_inj' hsplit rfl
    rw [← List.singleton_inj.1 he, hmarker] at hlast
    cases hlast
  | cutEmpty quote marker mark hmarker =>
    obtain ⟨-, he⟩ := List.append_inj' heq rfl
    rw [← List.singleton_inj.1 he, hmarker] at hlast
    cases hlast
  | fail e error part whole =>
    obtain ⟨rfl, he⟩ := List.append_inj' heq rfl
    obtain rfl := List.singleton_inj.1 he
    obtain ⟨rest, hrest⟩ := part
    refine ⟨⟨String.ofList rest, String.toList_inj.1 ?_⟩, fun htext => ?_⟩
    · rw [String.toList_append, String.toList_ofList]
      exact hrest.symm
    · exact String.toList_inj.1 (whole htext)

end Ends

end Scanner

/-- **Nothing of a source is lost** where white space is reported. Without a failure and without an
end marker the tokens render to the source. Before an end marker there is either a quote that opens
nothing, or a last token that was never closed. Before a failure the tokens render to a beginning of
the source, and to all of it if a bracket was left open. -/
theorem renderAll_lexWith (source : String) :
    ((∀ t ∈ lexWith ⟨true⟩ source, t.kind ≠ .error ∧ t.kind ≠ .endMarker) →
      renderAll (lexWith ⟨true⟩ source) = source) ∧
    (∀ ts last, lexWith ⟨true⟩ source = ts ++ [last] → last.kind = .endMarker →
      (source = renderAll ts ++ "\"" ∨ source = renderAll ts ++ "`") ∨
      ∃ front u, ts = front ++ [u] ∧ (u.kind = .string ∨ u.kind = .quote ∨ u.kind = .comment) ∧
        source = renderAll front ++ u.kind.openQuote ++ u.text) ∧
    ∀ ts last, lexWith ⟨true⟩ source = ts ++ [last] → last.kind = .error →
      (∃ rest, source = renderAll ts ++ rest) ∧
        (last.text = "unclosed bracket" → source = renderAll ts) := by
  obtain ⟨us, ending, htokens, hplain, hends⟩ :
      ∃ us ending, lexWith ⟨true⟩ source = us ++ ending ∧ (∀ t ∈ us, t.kind.isFinal = false) ∧
        Scanner.Ends source (renderAll us).toList ending :=
    (Scanner.kept_ofSource source).run (Scanner.ready_neutral _)
  rw [htokens]
  refine ⟨fun hclean => ?_, fun ts last heq hlast => ?_, fun ts last heq hlast => ?_⟩
  · obtain ⟨rfl, hwhole⟩ | ⟨t, ht, hfinal⟩ := hends.whole_or_exists_final
    · rw [List.append_nil]
      exact (String.toList_inj.1 hwhole).symm
    · obtain ⟨herror, hend⟩ := hclean t (List.mem_append_right us ht)
      rw [TokenKind.isFinal_eq_false herror hend] at hfinal
      cases hfinal
  · exact hends.of_endMarker (Scanner.Ends.ne_nil hplain heq (by rw [hlast]; rfl)) heq hlast
  · exact hends.of_error (Scanner.Ends.ne_nil hplain heq (by rw [hlast]; rfl)) heq hlast

/-- A source of each of the three sorts. -/
theorem renderAll_lexWith_of_each_sort :
    renderAll (lexWith ⟨true⟩ "x \"y\" // z\n") = "x \"y\" // z\n" ∧
      (∃ ts last, lexWith ⟨true⟩ "x /* y" = ts ++ [last] ∧ last.kind = .endMarker ∧
        (("x /* y" = renderAll ts ++ "\"" ∨ "x /* y" = renderAll ts ++ "`") ∨
          ∃ front u, ts = front ++ [u] ∧ (u.kind = .string ∨ u.kind = .quote ∨ u.kind = .comment) ∧
            "x /* y" = renderAll front ++ u.kind.openQuote ++ u.text)) ∧
      ∃ ts last, lexWith ⟨true⟩ "(+1" = ts ++ [last] ∧ last.text = "unclosed bracket" ∧
        "(+1" = renderAll ts := by
  have hwhole : lexWith ⟨true⟩ "x \"y\" // z\n" = [⟨.identifier, "x", ⟨0, 1⟩⟩,
      ⟨.space, " ", ⟨1, 2⟩⟩, ⟨.string, "y", ⟨3, 4⟩⟩, ⟨.space, " ", ⟨5, 6⟩⟩,
      ⟨.comment, "// z", ⟨6, 10⟩⟩] := by decide +kernel
  have hcut : lexWith ⟨true⟩ "x /* y" = [⟨.identifier, "x", ⟨0, 1⟩⟩, ⟨.space, " ", ⟨1, 2⟩⟩,
      ⟨.comment, "/* y", ⟨2, 6⟩⟩] ++ [⟨.endMarker, "", ⟨6, 6⟩⟩] := by decide +kernel
  have hopen : lexWith ⟨true⟩ "(+1" = [⟨.bracketOpen, "(", ⟨0, 1⟩⟩, ⟨.number, "+1", ⟨1, 3⟩⟩] ++
      [⟨.error, "unclosed bracket", ⟨3, 3⟩⟩] := by decide +kernel
  refine ⟨(renderAll_lexWith _).1 (by rw [hwhole]; decide), ⟨_, _, hcut, rfl, ?_⟩, _, _, hopen,
    rfl, ?_⟩
  · exact (renderAll_lexWith _).2.1 _ _ hcut rfl
  · exact ((renderAll_lexWith _).2.2 _ _ hopen rfl).2 rfl

end DeclFront
