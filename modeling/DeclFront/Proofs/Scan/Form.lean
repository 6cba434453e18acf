import DeclFront.Proofs.Scan.Ending
import DeclFront.Proofs.Scan.Spelling

/-!
# The texts of tokens

What a token of each kind can be made of, said without a scanner: `Formed` is the lexical grammar.
Brackets, punctuation and words are runs of certain runes. A delimited piece is a body in which its
closer does not stand (`Cursor.Closes`), and a character constant one in which neither a quote nor a
line end does (`Cursor.CharBody`); in both a backslash may hide the rune after it. Of a number it is
enough to say that it is read whole (`Cursor.Reads`).

For the delimited pieces reading is shown to be both sound and complete with respect to this
description. Numbers have it from locality: an operation that later runes cannot mislead reads back
just what it took (`Local.reads_taken`).

The main statement is that every token of a scan is formed, a piece that was cut off apart
(`formed_of_mem_lex`). That a formed token is read again is the subject of another module.
-/

namespace DeclFront

/-- The kind of a word is one that words have. -/
theorem TokenKind.isVerbal_ofWord (word : String) : (ofWord word).isVerbal = true :=
  ofWord_induction (P := (·.isVerbal = true)) (fun _ => rfl) rfl rfl word

/-- A word has no kind but those that words have. -/
theorem TokenKind.ofWord_ne {kind : TokenKind} (h : kind.isVerbal = false) (word : String) :
    ofWord word ≠ kind := by
  rintro rfl
  rw [isVerbal_ofWord] at h
  cases h

namespace Cursor

variable {c c' : Cursor} {before piece ahead taken rest body : List Char}

/-! ### Bodies of delimited pieces -/

/-- What stands between the opener and the closer of a delimited piece: the closer stands nowhere in
it, and a backslash may hide the rune after it. -/
inductive Closes (form : Delimited) : List Char → Prop
  | nil : Closes form []
  | plain {r : Char} {body : List Char} (hr : (form.escapes && r == '\\') = false)
      (hnot : ¬ form.closer <+: r :: (body ++ form.closer)) (h : Closes form body) :
      Closes form (r :: body)
  | escape {r q : Char} {body : List Char} (hr : (form.escapes && r == '\\') = true)
      (hnot : ¬ form.closer <+: r :: q :: (body ++ form.closer)) (h : Closes form body) :
      Closes form (r :: q :: body)

/-- A closer that does not stand before another one does not stand there with more runes behind. -/
theorem not_prefix_append {closer rest : List Char} (runes : List Char)
    (h : ¬ closer <+: runes ++ closer) : ¬ closer <+: runes ++ (closer ++ rest) := by
  intro hfirst
  refine h (List.prefix_of_prefix_length_le hfirst ⟨rest, ?_⟩ ?_)
  · rw [List.append_assoc]
  · rw [List.length_append]
    exact Nat.le_add_left _ _

/-- A body is read up to its closer, whatever comes after that. -/
theorem Closes.finds {form : Delimited} (h : Closes form body) (rest : List Char) :
    Finds form (body ++ (form.closer ++ rest)) body rest := by
  induction h with
  | nil =>
    refine ⟨rfl, fun {c _ _ more} hc => ⟨c, ?_, ?_⟩⟩
    · refine Holds.seek_here ((hc.lookingAt_iff _).2 ?_)
      rw [List.nil_append, List.append_assoc]
      exact List.prefix_append _ _
    · rwa [List.append_nil, ← List.append_assoc]
  | @plain r body hr hnot _ ih =>
    have hfront : ¬ form.closer <+: [r] ++ (body ++ (form.closer ++ rest)) :=
      not_prefix_append (r :: body) hnot
    exact ih.prepend (passes_of_plain hr) hfront
  | @escape r q body hr hnot _ ih =>
    have hfront : ¬ form.closer <+: [r, q] ++ (body ++ (form.closer ++ rest)) :=
      not_prefix_append (r :: q :: body) hnot
    exact ih.prepend (passes_of_escape hr) hfront

/-- What was read up to a closer is a body. -/
theorem Holds.closes_of_seek {form : Delimited} (hcloser : form.closer ≠ [])
    (h : c.Holds before piece ahead) (hseek : c.seek form = (true, c')) :
    ∃ body rest, ahead = body ++ (form.closer ++ rest) ∧ Closes form body := by
  fun_induction c.seek form generalizing piece ahead with
  | case1 c hlook =>
    obtain ⟨rest, hrest⟩ := (h.lookingAt_iff _).1 hlook
    exact ⟨[], rest, hrest.symm, .nil⟩
  | case2 c hlook hhead => cases hseek
  | case3 c hlook r hhead _ _ hr ih =>
    obtain ⟨tail, rfl⟩ := h.exists_cons hhead
    have hnot : ¬ form.closer <+: r :: tail := fun hfirst => hlook ((h.lookingAt_iff _).2 hfirst)
    have hpast : (c.past r).Holds before (piece ++ [r]) tail := h.past
    cases tail with
    | nil =>
      -- a backslash at the very end hides nothing, and no closer comes after it
      have hread : (c.past r).read.2 = (c.past r).settle := by
        rw [read, hpast.head?_eq]
        rfl
      rw [hread] at ih hseek
      obtain ⟨body, rest, hsplit, -⟩ := ih hpast.settle hseek
      exact absurd (List.append_eq_nil_iff.1 (List.append_eq_nil_iff.1 hsplit.symm).2).1 hcloser
    | cons q tail =>
      have hread : (c.past r).read.2 = (c.past r).past q := by
        rw [read, hpast.head?_eq]
        rfl
      rw [hread] at ih hseek
      obtain ⟨body, rest, rfl, hcloses⟩ := ih hpast.past hseek
      refine ⟨r :: q :: body, rest, rfl, .escape hr (fun hfirst => hnot ?_) hcloses⟩
      refine hfirst.trans ⟨rest, ?_⟩
      simp only [List.cons_append, List.append_assoc]
  | case4 c hlook r hhead _ _ hr ih =>
    obtain ⟨tail, rfl⟩ := h.exists_cons hhead
    have hnot : ¬ form.closer <+: r :: tail := fun hfirst => hlook ((h.lookingAt_iff _).2 hfirst)
    -- nothing is hidden, so the body goes on with the next rune
    obtain ⟨body, rest, rfl, hcloses⟩ := ih h.past hseek
    refine ⟨r :: body, rest, rfl, .plain (Bool.not_eq_true _ ▸ hr) (fun hfirst => hnot ?_) hcloses⟩
    refine hfirst.trans ⟨rest, ?_⟩
    simp only [List.cons_append, List.append_assoc]

/-! ### Bodies of character constants -/

/-- What stands after the opening quote of a character constant, its closing quote included. -/
inductive CharBody : List Char → Prop
  | close : CharBody ['\'']
  | plain {r : Char} {body : List Char} (hescape : r ≠ '\\') (hline : r ≠ '\n') (hquote : r ≠ '\'')
      (h : CharBody body) : CharBody (r :: body)
  | escape {q : Char} {body : List Char} (hline : q ≠ '\n') (h : CharBody body) :
      CharBody ('\\' :: q :: body)

/-- The body of a character constant is read to its end, whatever comes after that. -/
theorem CharBody.readChar (h : CharBody body) (hc : c.Holds before piece (body ++ rest)) :
    ∃ c', c.readChar = (true, c') ∧ c'.Holds before (piece ++ body) rest := by
  induction h generalizing c piece with
  | close => exact ⟨_, readChar_of_head hc.head?_eq (by decide), hc.past⟩
  | @plain r body hescape hline hquote _ ih =>
    obtain ⟨c', hread, hc'⟩ := ih hc.past
    rw [List.append_assoc] at hc'
    refine ⟨c', (readChar_of_head hc.head?_eq hescape).trans ?_, hc'⟩
    rw [if_neg fun h => hline (beq_iff_eq.1 h), if_neg fun h => hquote (beq_iff_eq.1 h)]
    exact hread
  | @escape q body hline _ ih =>
    obtain ⟨c', hread, hc'⟩ := ih hc.past.past
    rw [List.append_assoc, List.append_assoc] at hc'
    refine ⟨c', (readChar_of_escape hc.head?_eq hc.past.head?_eq).trans ?_, hc'⟩
    rw [if_neg fun h => hline (beq_iff_eq.1 h)]
    exact hread

/-- What was read of a character constant that is closed is such a body. -/
theorem Holds.charBody_of_readChar (h : c.Holds before piece ahead)
    (hread : c.readChar = (true, c')) :
    ∃ body rest, ahead = body ++ rest ∧ CharBody body := by
  -- the cases in which the constant breaks off close no quote
  fun_induction Cursor.readChar c generalizing piece ahead with
  | case1 c hhead => cases hread
  | case2 c r hhead _ hr hhead' => cases hread
  | case3 c r hhead _ hr q hhead' _ hq => cases hread
  -- a backslash with a rune after it
  | case4 c r hhead _ hr q hhead' _ hq ih =>
    obtain ⟨tail, rfl⟩ := h.exists_cons hhead
    obtain ⟨tail, rfl⟩ := h.past.exists_cons hhead'
    obtain ⟨body, rest, rfl, hbody⟩ := ih h.past.past hread
    obtain rfl : r = '\\' := beq_iff_eq.1 hr
    exact ⟨'\\' :: q :: body, rest, rfl, .escape (fun hline => hq (beq_iff_eq.2 hline)) hbody⟩
  | case5 c r hhead _ hr hline => cases hread
  | case6 c r hhead _ hr hline hquote =>
    obtain ⟨tail, rfl⟩ := h.exists_cons hhead
    obtain rfl : r = '\'' := beq_iff_eq.1 hquote
    exact ⟨['\''], tail, rfl, .close⟩
  | case7 c r hhead _ hr hline hquote ih =>
    obtain ⟨tail, rfl⟩ := h.exists_cons hhead
    obtain ⟨body, rest, rfl, hbody⟩ := ih h.past hread
    refine ⟨r :: body, rest, rfl,
      .plain (fun h => hr ?_) (fun h => hline ?_) (fun h => hquote ?_) hbody⟩
    · exact beq_iff_eq.2 h
    · exact beq_iff_eq.2 h
    · exact beq_iff_eq.2 h

/-! ### What a local operation took -/

/-- A local operation reads back what it took. -/
theorem Local.reads_taken {op : Cursor → Cursor} (hop : Local op)
    (h : Reads op ahead taken rest) : Reads op taken taken [] := by
  obtain ⟨taken', rest', h'⟩ := hop taken
  cases rest' with
  | nil =>
    obtain rfl : taken = taken' := h'.split.trans (List.append_nil taken')
    exact h'
  | cons q rest' =>
    -- stopping short of `taken`, it would have done so with `rest` behind it as well
    have hnew := Cursor.holds_ofSource (String.ofList ahead)
    rw [String.toList_ofList] at hnew
    have hlong : (op (ofSource (String.ofList ahead))).Holds [] taken rest := by
      have hc : (ofSource (String.ofList ahead)).Holds [] [] (ahead ++ []) := by
        rwa [List.append_nil]
      simpa only [List.nil_append, List.append_nil] using h.holds hc (.inr inert_nil)
    have hshort : (op (ofSource (String.ofList ahead))).Holds [] taken' (q :: rest' ++ rest) := by
      rw [h.split] at hnew
      have hc := h'.holds hnew (.inl (List.cons_ne_nil q rest'))
      rwa [← h.split] at hc
    -- the two ends are one, so nothing was left of `taken`
    have hsize : byteLength taken = byteLength taken' := by
      have hoffset := hlong.offset_eq.symm.trans hshort.offset_eq
      omega
    have hpos := Char.utf8Size_pos q
    rw [h'.split, byteLength_append, byteLength_cons] at hsize
    omega

/-- A point belongs to the number that begins with it. -/
theorem Holds.readMagnitude_of_point {tail : List Char} (h : c.Holds before piece ('.' :: tail)) :
    ∃ taken rest, c.readMagnitude.Holds before (piece ++ '.' :: taken) rest := by
  have hzero : c.head?.any (· == '0') = false := by
    rw [h.head?_eq]
    rfl
  -- no digits come before the point
  have hdigits : (c.settle.skip Radix.decimal.isDigit).Holds before piece ('.' :: tail) := by
    have hskip := h.settle.skip Radix.decimal.isDigit
    rwa [List.takeWhile_cons_of_neg (by decide), List.dropWhile_cons_of_neg (by decide),
      List.append_nil] at hskip
  have hfraction : (c.settle.skip Radix.decimal.isDigit).readFraction .decimal =
      ((c.settle.skip Radix.decimal.isDigit).past '.').skip Radix.decimal.isDigit := by
    rw [readFraction_eq, hdigits.head?_eq, skipOne_of_head hdigits.head?_eq rfl]
    rfl
  have hlocal := ((local_skip (solid_isDigit .decimal)).comp local_readExponent).comp
    (local_skipOne (p := (· == 'i')) (solid_of_four (by decide)))
  obtain ⟨taken, rest, -, hrest⟩ := hlocal.exists_holds hdigits.past
  refine ⟨taken, rest, ?_⟩
  rw [readMagnitude_eq, hzero, if_neg Bool.false_ne_true, skipOne_of_not_any hzero, readDigits,
    hfraction]
  rwa [List.append_assoc] at hrest

end Cursor

/-! ### The lexical grammar -/

open Scanner

/-- What the tokens of each kind can be made of. -/
inductive Formed : TokenKind → List Char → Prop
  | word {runes : List Char} (h : isWord runes = true) :
      Formed (.ofWord (String.ofList runes)) runes
  | opening (b : Bracket) : Formed .bracketOpen [b.opening]
  | closing (b : Bracket) : Formed .bracketClose [b.closing]
  | mark {r : Char} (h : Onset.ofRune r = .literal) : Formed .literal [r]
  | slash : Formed .literal ['/']
  | sign {r : Char} (h : Cursor.isSign r = true) : Formed .literal [r]
  | number {sign digits : List Char} (hsigned : Signed sign digits)
      (hreads : Cursor.Reads Cursor.readMagnitude digits digits []) :
      Formed .number (sign ++ digits)
  | char {body : List Char} (h : Cursor.CharBody body) : Formed .char ('\'' :: body)
  | delimited {state : ScanState} {form : Delimited} {body : List Char}
      (encloses : Encloses state form) (h : Cursor.Closes form body) :
      Formed form.kind
        (state.collected ++ (body ++ if form.keepsCloser then form.closer else []))

namespace Scanner

variable {source : String} {rendered before piece ahead : List Char} {s s' : Scanner}
  {state state' : ScanState} {c : Cursor} {kind : TokenKind} {ts : List Token}

/-- If the step leads on, its tokens are formed, white space apart. -/
def Forms (step : ScanStep) : Prop :=
  ∀ next s', step.result = (some next, s') →
    ∀ t ∈ step.tokens, t.kind.isTrivia = false → Formed t.kind t.text.toList

/-- A step that does not lead on has nothing to show. -/
theorem forms_of_none {step : ScanStep} (h : step.result.1 = none) : Forms step := by
  intro next s' hnext
  rw [hnext] at h
  cases h

/-- Going on to another state emits nothing. -/
theorem forms_goto (next : ScanState) : Forms (s.goto c next) := by
  intro next' s' h t ht
  cases ht

/-- The one token that a step emits is formed. -/
theorem forms_of_tokens {step : ScanStep} (htokens : step.tokens = [.ofPiece kind before piece])
    (h : Formed kind piece) : Forms step := by
  intro next s' hnext t ht _
  rw [htokens, List.mem_singleton] at ht
  rw [ht]
  show Formed kind (String.ofList piece).toList
  rwa [String.toList_ofList]

/-- A step that emits the piece is formed if the piece is. -/
theorem forms_emit (hc : c.Holds before piece ahead) (h : Formed kind piece) :
    Forms (s.emit c kind) :=
  forms_of_tokens (congrArg (fun t => [t]) (hc.token_eq kind)) h

/-- A run of white space is not asked for. -/
theorem forms_scanTrivia {p : Char → Bool} (hkind : kind.isTrivia = true) :
    Forms (s.scanTrivia kind p) := by
  unfold scanTrivia
  dsimp only
  split_ifs
  · intro next s' h t ht htrivia
    rw [tokens_emit, List.mem_singleton] at ht
    rw [ht, hkind] at htrivia
    cases htrivia
  · exact forms_goto .neutral

/-- What a step between tokens emits at a rune is formed. -/
theorem forms_scanOnset {r : Char} (h : Kept source rendered s .neutral)
    (hhead : s.cursor.head? = some r) {onset : Onset} (honset : Onset.ofRune r = onset) :
    Forms (s.scanOnset r onset) := by
  obtain ⟨ahead, hc⟩ := h.between
  obtain ⟨rest, rfl⟩ := hc.exists_cons hhead
  have hsuits := Onset.suits_ofRune r
  rw [honset] at hsuits
  have hpast : (s.cursor.past r).Holds rendered [r] rest := hc.past
  cases onset with
  | run next => exact forms_goto next
  | quoted next => exact forms_goto next
  | char => exact forms_goto .char
  | slash =>
    obtain rfl : r = '/' := hsuits
    show Forms (s.scanSlash _)
    unfold scanSlash
    split
    · exact forms_goto .lineComment
    · exact forms_goto .blockComment
    · exact forms_emit hpast .slash
  | opening b =>
    obtain rfl : r = b.opening := hsuits
    exact forms_emit hpast (.opening b)
  | closing b =>
    obtain rfl : r = b.closing := hsuits
    show Forms (s.scanClosing _ b)
    unfold scanClosing
    split
    · exact forms_of_none rfl
    · exact forms_emit hpast (.closing b)
  | literal => exact forms_emit hpast (.mark honset)
  | unknown => exact forms_of_none rfl

theorem forms_scanNeutral (h : Kept source rendered s .neutral) : Forms s.scanNeutral := by
  cases hhead : s.cursor.head? with
  | none =>
    rw [scanNeutral, hhead]
    dsimp only
    split_ifs
    · exact forms_of_none rfl
    · exact forms_of_none rfl
  | some r =>
    rw [scanNeutral_eq_scanOnset hhead]
    exact forms_scanOnset h hhead rfl

/-- What a delimited piece emits is formed: a closer that is not found ends the scan. -/
theorem forms_scanDelimited {form : Delimited} (h : Kept source rendered s state)
    (encloses : Encloses state form) : Forms (s.step state) := by
  obtain ⟨ahead, hc⟩ := h.holds
  rw [encloses.step_eq]
  cases hseek : s.cursor.seek form with
  | mk found c =>
    cases found with
    | false =>
      have hc' := hc.of_seek_lost encloses.closer_ne_nil hseek
      exact forms_of_none (scanDelimited_lost hseek hc').1
    | true =>
      -- what was read is a body, and a body reads back to the same token
      obtain ⟨body, rest, rfl, hcloses⟩ := hc.closes_of_seek encloses.closer_ne_nil hseek
      rw [← List.append_nil (body ++ _)] at hc
      obtain ⟨c', hseek', hc'⟩ := (hcloses.finds rest).holds hc
      obtain ⟨-, -, -, htokens⟩ := scanDelimited_found hseek' hc'
      rw [List.append_assoc] at htokens
      exact forms_of_tokens htokens (.delimited encloses hcloses)

theorem forms_scanChar (h : Kept source rendered s .char) : Forms s.scanChar := by
  obtain ⟨ahead, hc⟩ := h.holds
  unfold scanChar
  cases hread : s.cursor.readChar with
  | mk closed c =>
    cases closed with
    | false => exact forms_of_none rfl
    | true =>
      obtain ⟨body, rest, rfl, hbody⟩ := hc.charBody_of_readChar hread
      obtain ⟨c', hread', hc'⟩ := hbody.readChar hc
      rw [hread] at hread'
      obtain ⟨-, rfl⟩ := Prod.mk.inj hread'
      exact forms_emit hc' (.char hbody)

/-- A number that has its sign still has it when it is read alone, unless a word rune spoils it. -/
theorem Signed.of_reads {taken rest : List Char} (h : Signed piece ahead)
    (hreads : Cursor.Reads Cursor.readMagnitude ahead taken rest)
    (hword : rest.head?.any isWordRune = false) : Signed piece taken := by
  have hsplit := hreads.split
  cases h with
  -- without a sign the number begins with a digit, and that was read
  | @absent r tail hr =>
    cases taken with
    | nil => exact absurd rfl (taken_ne_nil_of_isDecimal hreads rfl hr)
    | cons q taken =>
      obtain ⟨rfl, -⟩ := List.cons.inj hsplit
      exact .absent hr
  | @present r _ hr hnext =>
    cases taken with
    | cons q taken =>
      rw [hsplit] at hnext
      exact .present hr hnext
    | nil =>
      -- what continues a sign is a word rune or a point, and the point would have been read
      obtain rfl : ahead = rest := hsplit
      cases ahead with
      | nil => cases hnext
      | cons q ahead =>
        have hq : continuesSign q = true := hnext
        have hqword : isWordRune q = false := hword
        rw [continuesSign, hqword, Bool.or_false, beq_iff_eq] at hq
        subst hq
        have hnew := Cursor.holds_ofSource (String.ofList ('.' :: ahead))
        rw [String.toList_ofList] at hnew
        obtain ⟨taken', rest', hpoint⟩ := hnew.readMagnitude_of_point
        have hnone := hreads.holds (by rwa [List.append_nil]) (.inr inert_nil)
        have hoffset := hnone.offset_eq.symm.trans hpoint.offset_eq
        have hpos := Char.utf8Size_pos '.'
        simp only [List.nil_append, byteLength_nil, byteLength_cons] at hoffset
        omega

/-- What a number state emits after a sign or none. -/
theorem forms_scanMagnitude (hsigned : Signed piece ahead) (hc : c.Holds before piece ahead) :
    Forms (s.scanMagnitude c) := by
  obtain ⟨taken, rest, hreads⟩ := Cursor.local_readMagnitude ahead
  rw [← List.append_nil ahead] at hc
  have hread := hreads.holds hc (.inr inert_nil)
  rw [List.append_nil] at hread
  cases hword : rest.head?.any isWordRune with
  | true =>
    -- a word rune after the number fails
    obtain ⟨q, hq, hqword⟩ := (Option.any_eq_true _ _).1 hword
    rw [scanMagnitude_of_word (hread.head?_eq.trans hq) hqword]
    exact forms_of_none rfl
  | false =>
    have hformed := Formed.number (hsigned.of_reads hreads hword)
      (Cursor.local_readMagnitude.reads_taken hreads)
    have hend : c.readMagnitude.head?.any isWordRune = false := by rw [hread.head?_eq, hword]
    rw [scanMagnitude_of_end hend]
    exact forms_emit hread hformed

theorem forms_scanNumber (h : Kept source rendered s .number) (hready : s.Ready .number) :
    Forms s.scanNumber := by
  obtain ⟨r, hhead, hr⟩ := hready rfl
  obtain ⟨ahead, hc⟩ := h.holds
  obtain ⟨tail, rfl⟩ := hc.exists_cons hhead
  cases hsign : Cursor.isSign r with
  | false =>
    have hdecimal : isDecimal r = true := by rwa [begins, hsign, Bool.false_or] at hr
    rw [scanNumber_eq (Cursor.accept_of_not_head hhead hsign), Bool.false_and,
      if_neg Bool.false_ne_true]
    exact forms_scanMagnitude (.absent hdecimal) hc.settle
  | true =>
    -- a sign that nothing continues is a token of its own
    have hpast : (s.cursor.past r).Holds (rendered ++ []) [r] tail := hc.past
    rw [scanNumber_eq (Cursor.accept_of_head hhead hsign), hpast.head?_eq, Bool.true_and]
    cases hnext : tail.head?.any continuesSign with
    | false =>
      rw [Bool.not_false, if_pos rfl]
      exact forms_emit hpast (.sign hsign)
    | true =>
      rw [Bool.not_true, if_neg Bool.false_ne_true]
      exact forms_scanMagnitude (.present hsign hnext) hpast

theorem forms_scanWord (h : Kept source rendered s .word) (hready : s.Ready .word) :
    Forms s.scanWord := by
  obtain ⟨ahead, hc⟩ := h.holds
  have hmarked : s.Marked .word := by
    show s.cursor.mark = s.cursor.offset
    rw [hc.mark_eq, hc.offset_eq]
    rfl
  have hskip := hc.skip continuesWord
  cases hend : (s.cursor.skip continuesWord).head?.all endsWord with
  | false =>
    obtain ⟨q, hq, hstop⟩ := (Option.all_eq_false _ _).1 hend
    rw [scanWord_of_stop hq hstop]
    exact forms_of_none rfl
  | true =>
    obtain ⟨hword, -⟩ := spelled_word hready hmarked (TokenKind.isVerbal_ofWord _)
    dsimp only at hword
    rw [hskip.pending_eq, String.toList_ofList] at hword
    rw [scanWord_of_end hend, hskip.pending_eq]
    exact forms_emit hskip (.word hword)

/-- **One step emits what is formed.** -/
theorem Kept.forms (h : Kept source rendered s state) (hready : s.Ready state) :
    Forms (s.step state) := by
  cases state with
  | neutral => exact forms_scanNeutral h
  | blanks => exact forms_scanTrivia rfl
  | lineEnds => exact forms_scanTrivia rfl
  | string => exact forms_scanDelimited h .string
  | quote => exact forms_scanDelimited h .quote
  | char => exact forms_scanChar h
  | lineComment => exact forms_scanDelimited h .lineComment
  | blockComment => exact forms_scanDelimited h .blockComment
  | number =>
    rw [step_number]
    exact forms_scanNumber h hready
  | word =>
    rw [step_word]
    exact forms_scanWord h hready

/-- So do all steps that lead on. -/
theorem Kept.formed_of_advances (h : Kept source rendered s state) (hready : s.Ready state)
    (hadv : Advances s state ts s' state') :
    ∀ t ∈ ts, t.kind.isTrivia = false → Formed t.kind t.text.toList := by
  induction hadv generalizing rendered with
  | refl =>
    intro t ht
    cases ht
  | next hstep rest ih =>
    have hkeeps := h.step
    rw [Keeps, hstep] at hkeeps
    intro t ht htrivia
    obtain ht | ht := List.mem_append.1 ht
    · exact h.forms hready _ _ hstep t ht htrivia
    · exact ih hkeeps.2 (hready.step _ _ hstep).1 t ht htrivia

end Scanner

/-- **Every token of a scan is formed**, white space and what is left at the end apart. -/
theorem exists_formed_ending (options : ScanOptions) (source : String) :
    ∃ ts ending rendered, lexWith options source = ts ++ ending ∧
      (∀ t ∈ ts, t.kind.isTrivia = false → Formed t.kind t.text.toList) ∧
      Scanner.Ending source rendered ending := by
  obtain ⟨ts, s, state, hadv, -, -, hending, hall, hlex⟩ := exists_advances_ending source
  have hformed := (Scanner.kept_ofSource source).formed_of_advances (Scanner.ready_neutral _) hadv
  obtain ⟨keepTrivia⟩ := options
  cases keepTrivia with
  | true => exact ⟨ts, _, _, hall, hformed, hending⟩
  | false =>
    exact ⟨_, _, _, hlex, fun t ht => hformed t (List.mem_filter.1 ht).1, hending⟩

/-- A token that is neither white space nor final is formed, unless an end marker comes directly
after it. -/
theorem formed_of_lexWith_eq_append {options : ScanOptions} {source : String} {us vs : List Token}
    {t : Token} (h : lexWith options source = us ++ t :: vs) (htrivia : t.kind.isTrivia = false)
    (hplain : t.kind.isFinal = false) (hnext : ∀ u, vs.head? = some u → u.kind ≠ .endMarker) :
    Formed t.kind t.text.toList := by
  obtain ⟨ts, ending, rendered, hlex, hformed, hending⟩ := exists_formed_ending options source
  have hcut : ∀ {ws : List Token}, ending = ws ++ t :: vs → Formed t.kind t.text.toList := by
    intro ws hsplit
    obtain ⟨u, rfl, hmarker⟩ := hending.endMarker_of_not_isFinal hsplit hplain
    exact absurd hmarker (hnext u rfl)
  rw [hlex] at h
  -- the token is one of the ending, or one before it
  obtain ⟨ws, -, hrest⟩ | ⟨ws, hfront, hrest⟩ := List.append_eq_append_iff.1 h
  · exact hcut hrest
  · cases ws with
    | nil =>
      have hend : ending = [] ++ t :: vs := hrest.symm
      exact hcut hend
    | cons w ws =>
      obtain ⟨rfl, -⟩ := List.cons.inj hrest
      exact hformed t (hfront ▸ List.mem_append_right us List.mem_cons_self) htrivia

/-- **Every token of a scan is formed**, if the scan ends without a failure and without an end
marker. -/
theorem formed_of_mem_lex {source : String} (hclean : ∀ t ∈ lex source, t.kind.isFinal = false) :
    ∀ t ∈ lex source, Formed t.kind t.text.toList := by
  obtain ⟨ts, s, state, hadv, -, -, hlex⟩ := exists_advances_of_clean hclean
  have hformed := (Scanner.kept_ofSource source).formed_of_advances (Scanner.ready_neutral _) hadv
  intro t ht
  rw [hlex, List.mem_filter, Bool.not_eq_true'] at ht
  exact hformed t ht.1 ht.2

end DeclFront
