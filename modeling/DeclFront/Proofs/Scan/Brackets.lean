import DeclFront.Proofs.Scan.Balance
import DeclFront.Proofs.Scan.Course

/-!
# The brackets of a scan

At every place of a scan the brackets of a pair that are open are those that its tokens have opened
less those that they have closed (`countP_of_advances`). This holds inside strings, comments and
characters too, where brackets are only runes. So all that a scanner says of brackets can be said of
its tokens:

* they never close more than they have opened, since the last step emits no bracket;
* a scan ends with an unclosed bracket just where it has read everything, stands between tokens, and
  its tokens have opened more than they have closed. If the source ends inside a delimited piece, it
  ends with an end marker and nothing is said of the brackets;
* a closing bracket that is met between tokens is refused just where its pair is in balance.

Where a source has nothing but brackets and white space, tokens and runes tell the same, and a scan
fails just where the runes are out of balance (`Unbalanced`).
-/

namespace DeclFront

/-! ### Runes out of balance -/

/-- With `n` brackets of the pair open, the runes close one too many or leave one open. -/
def Unbalanced (b : Bracket) (n : Nat) (runes : List Char) : Prop :=
  (∃ front, front <+: runes ∧ n + front.count b.opening < front.count b.closing) ∨
    n + runes.count b.opening ≠ runes.count b.closing

section Unbalanced

variable {b : Bracket} {n m : Nat} {r : Char}

theorem unbalanced_nil_iff : Unbalanced b n [] ↔ n ≠ 0 := by
  have hnone : ¬ ∃ front : List Char, front <+: [] ∧
      n + front.count b.opening < front.count b.closing := by
    rintro ⟨front, hfront, hlt⟩
    obtain rfl := List.prefix_nil.1 hfront
    exact Nat.not_lt_zero _ hlt
  rw [Unbalanced, or_iff_right hnone]
  rfl

/-- Whether the runes after the first are out of balance, once it is counted. -/
theorem unbalanced_cons_iff (runes : List Char)
    (h : n + (if r = b.opening then 1 else 0) = m + (if r = b.closing then 1 else 0)) :
    Unbalanced b n (r :: runes) ↔ Unbalanced b m runes := by
  have hopening : ∀ front : List Char, (r :: front).count b.opening =
      front.count b.opening + (if r = b.opening then 1 else 0) := by
    intro front
    simp only [List.count_cons, beq_iff_eq]
  have hclosing : ∀ front : List Char, (r :: front).count b.closing =
      front.count b.closing + (if r = b.closing then 1 else 0) := by
    intro front
    simp only [List.count_cons, beq_iff_eq]
  have hfront : (∃ front, front <+: r :: runes ∧
        n + front.count b.opening < front.count b.closing) ↔
      ∃ front, front <+: runes ∧ m + front.count b.opening < front.count b.closing := by
    refine ⟨?_, ?_⟩
    · rintro ⟨front, hfront, hlt⟩
      -- the empty front closes nothing, so the front that does has the first rune in it
      obtain rfl | ⟨tail, rfl, htail⟩ := List.prefix_cons_iff.1 hfront
      · exact absurd hlt (Nat.not_lt_zero (n + 0))
      · rw [hopening, hclosing] at hlt
        exact ⟨tail, htail, by omega⟩
    · rintro ⟨front, hfront, hlt⟩
      refine ⟨r :: front, List.cons_prefix_cons.2 ⟨rfl, hfront⟩, ?_⟩
      rw [hopening, hclosing]
      omega
  rw [Unbalanced, Unbalanced, hfront, hopening, hclosing]
  refine or_congr Iff.rfl ?_
  omega

/-- White space does not count. -/
theorem unbalanced_white_iff (hr : isWhite r = true) (runes : List Char) :
    Unbalanced b n (r :: runes) ↔ Unbalanced b n runes := by
  refine unbalanced_cons_iff runes ?_
  obtain rfl | rfl | rfl | rfl := isWhite_cases hr <;> cases b <;> rfl

theorem unbalanced_opening_iff (depths : Bracket → Nat) (b b' : Bracket) (runes : List Char) :
    Unbalanced b' (depths b') (b.opening :: runes) ↔
      Unbalanced b' (Function.update depths b (depths b + 1) b') runes := by
  refine unbalanced_cons_iff runes ?_
  cases b <;> cases b' <;> rfl

theorem unbalanced_closing_iff {depths : Bracket → Nat} (hopen : depths b = n + 1) (b' : Bracket)
    (runes : List Char) :
    Unbalanced b' (depths b') (b.closing :: runes) ↔
      Unbalanced b' (Function.update depths b n b') runes := by
  refine unbalanced_cons_iff runes ?_
  cases b <;> cases b' <;> first | exact hopen | rfl

/-- A bracket that closes nothing. -/
theorem unbalanced_stray (b : Bracket) (runes : List Char) :
    Unbalanced b 0 (b.closing :: runes) := by
  refine .inl ⟨[b.closing], List.cons_prefix_cons.2 ⟨rfl, List.nil_prefix⟩, ?_⟩
  cases b <;> decide

end Unbalanced

namespace Scanner

variable {source : String} {s s' : Scanner} {state state' : ScanState} {ts : List Token}
  {b : Bracket}

/-! ### Steps that lead on, and what they leave to do -/

/-- After some steps that lead on, the rest of the scan is the scan from there. -/
theorem Advances.tokens_runFrom (h : Advances s state ts s' state') (hready : s.Ready state) :
    (s.runFrom state).tokens = ts ++ (s'.runFrom state').tokens := by
  induction h with
  | refl => rfl
  | next hstep rest ih =>
    rw [tokens_runFrom_of_next hready hstep, ih (hready.step _ _ hstep).1, List.append_assoc]

/-- Steps of a quiet scanner are steps of a scanner that reports white space. -/
theorem Advances.exists_of_quiet {q q' : Scanner} {us : List Token}
    (h : Advances q state us q' state') (hq : q = s.quiet) :
    ∃ ts s', Advances s state ts s' state' ∧ us = ts.filter (!·.kind.isTrivia) ∧
      q' = s'.quiet := by
  induction h generalizing s with
  | refl q state => exact ⟨[], s, .refl s state, rfl, hq⟩
  | @next q q₁ q' state state₁ state' us hstep rest ih =>
    subst hq
    obtain ⟨htokens, hresult⟩ := mutes_step s state
    rcases hloud : (s.step state).result with ⟨next, s₁⟩
    rw [hstep, hloud, Prod.mk.injEq] at hresult
    obtain ⟨rfl, rfl⟩ := hresult
    obtain ⟨ts, s', hadv, hts, hs'⟩ := ih rfl
    refine ⟨_, s', .next hloud hadv, ?_, hs'⟩
    rw [htokens, hts, List.filter_append]

/-- What a scan of a source has done by a place between two of its steps. -/
structure Underway (source : String) (ts : List Token) (s : Scanner) (state : ScanState) :
    Prop where
  /-- The counts of the scanner are those of the tokens. -/
  tally : ∀ b, tallyAll b 0 ts = some (s.depth b)
  plain : ∀ t ∈ ts, t.kind.isFinal = false
  source_eq : s.cursor.source = source
  sound : s.cursor.Sound
  stands : state = .neutral → ∃ before ahead, s.Stands before ahead s.depth

/-- **Every place of a scan** that does not report white space. -/
theorem underway_of_advances (h : Advances (ofSource source ⟨false⟩) .neutral ts s state) :
    Underway source ts s state := by
  -- the scan that reports white space goes the same way, and keeps all that it reads
  have hstart : ∀ b, (ofSource source ⟨true⟩).depth b = 0 := by
    intro b
    cases b <;> rfl
  obtain ⟨us, s', hadv, rfl, rfl⟩ := h.exists_of_quiet (s := ofSource source ⟨true⟩) rfl
  have htally := (kept_ofSource source).tallyAll_of_advances hadv
  obtain ⟨hplain, hkept⟩ := (kept_ofSource source).advances hadv
  refine ⟨fun b => ?_, fun t ht => ?_, hkept.source_eq, ?_, fun hstate => ?_⟩
  · rw [tallyAll_filter b fun t m ht => ?_, depth_quiet, ← htally b, hstart b]
    rw [Bool.not_eq_false'] at ht
    exact Token.tally_of_kind (TokenKind.isBracket_of_isTrivia ht) b m
  · exact hplain t (List.mem_of_mem_filter ht)
  · obtain ⟨ahead, hholds⟩ := hkept.holds
    exact ⟨_, _, _, hholds⟩
  · subst hstate
    obtain ⟨ahead, hholds⟩ := hkept.between
    exact ⟨_, ahead, hholds, rfl, rfl⟩

/-- **The open brackets** are those that the tokens have opened and not closed. -/
theorem countP_of_advances (h : Advances (ofSource source ⟨false⟩) .neutral ts s state)
    (b : Bracket) : ts.countP (·.opens b) = s.depth b + ts.countP (·.closes b) := by
  have hcount := countP_of_tallyAll ((underway_of_advances h).tally b)
  rwa [Nat.zero_add] at hcount

/-! ### The last step -/

/-- The last step emits no bracket. -/
theorem tallyAll_of_stop (hstop : (s.step state).result.1 = none) (b : Bracket) (n : Nat) :
    tallyAll b n (s.step state).tokens = some n := by
  have hdoes := does_step s state
  generalize s.step state = step at hdoes hstop ⊢
  cases hdoes with
  | finish | unclosed | stray | unknown | badChar | badNumber | badWord | cutEmpty => rfl
  | cut encloses => cases encloses <;> rfl
  | _ => cases hstop

/-- The last step speaks of an unclosed bracket only between tokens, at the end of the source. -/
theorem exists_open_of_stop (hstop : (s.step state).result.1 = none) {e : Token}
    (he : e ∈ (s.step state).tokens) (hkind : e.kind = .error)
    (htext : e.text = "unclosed bracket") :
    state = .neutral ∧ s.cursor.head? = none ∧ ∃ b, s.depth b ≠ 0 := by
  have hdoes := does_step s state
  generalize s.step state = step at hdoes hstop he
  cases hdoes with
  | unclosed hhead hopen =>
    refine ⟨rfl, hhead, ?_⟩
    -- the message is that of a pair which is open
    obtain hopen | hopen := hopen
    · exact ⟨.paren, hopen⟩
    · exact ⟨.brace, hopen⟩
  | finish => cases he
  -- every other message begins in another way
  | stray | unknown | badNumber | badWord =>
    obtain rfl := List.mem_singleton.1 he
    exact absurd htext (append_ne_of_front (by decide))
  | badChar =>
    have hother : "unterminated character constant" ≠ "unclosed bracket" := by decide
    obtain rfl := List.mem_singleton.1 he
    exact absurd htext hother
  | cutEmpty =>
    obtain rfl := List.mem_singleton.1 he
    cases hkind
  | cut encloses =>
    obtain rfl | he := List.mem_cons.1 he
    · cases encloses <;> cases hkind
    · obtain rfl := List.mem_singleton.1 he
      cases hkind
  | _ => cases hstop

/-- A failure between tokens is the only token from there. -/
theorem tokens_run_of_fail {c : Cursor} {message : String} {span : Span}
    (hstep : s.scanNeutral = s.fail c message span) :
    s.run.tokens = [⟨.error, message, span⟩] := by
  have hstop : (s.step .neutral).result.1 = none := by
    show s.scanNeutral.result.1 = none
    rw [hstep]
    rfl
  calc s.run.tokens
      = (s.step .neutral).tokens := tokens_runFrom_of_stop s.ready_neutral hstop
    _ = (s.fail c message span).tokens := congrArg Emitter.tokens hstep

/-- At the end of the source, with a bracket open. -/
theorem tokens_run_of_open (hhead : s.cursor.head? = none) (hopen : s.depth b ≠ 0) :
    s.run.tokens = [⟨.error, "unclosed bracket", Span.point s.cursor.offset⟩] := by
  have hdepths : s.parens ≠ 0 ∨ s.braces ≠ 0 := by
    cases b with
    | paren => exact .inl hopen
    | brace => exact .inr hopen
  have hstep : s.scanNeutral =
      s.fail s.cursor.settle "unclosed bracket" (Span.point s.cursor.offset) := by
    rw [scanNeutral, hhead]
    exact if_pos hdepths
  exact tokens_run_of_fail hstep

/-- At a closing bracket, with none of its pair open. -/
theorem Stands.stray {before ahead : List Char} {depths : Bracket → Nat}
    (h : s.Stands before (b.closing :: ahead) depths) (hdepth : depths b = 0) :
    s.run.tokens = [⟨.error, "unexpected character " ++ nameRune b.closing,
      ⟨s.cursor.offset, s.cursor.offset + 1⟩⟩] := by
  have hhead : s.cursor.head? = some b.closing := h.holds.head?_eq
  have hstep : s.scanNeutral = s.fail (s.cursor.past b.closing)
      ("unexpected character " ++ nameRune b.closing) (s.cursor.past b.closing).span := by
    rw [scanNeutral_of_closing hhead, scanClosing, h.depth_eq, hdepth]
  have hspan : (s.cursor.past b.closing).span = ⟨s.cursor.offset, s.cursor.offset + 1⟩ := by
    have hsize : b.closing.utf8Size = 1 := by cases b <;> rfl
    have hmark : s.cursor.mark = s.cursor.offset := by
      rw [h.holds.mark_eq, h.holds.offset_eq, byteLength_nil, Nat.add_zero]
    show (⟨s.cursor.mark, s.cursor.offset + b.closing.utf8Size⟩ : Span) = _
    rw [hmark, hsize]
  rw [tokens_run_of_fail hstep, hspan]

/-! ### Sources of brackets and white space -/

/-- **Brackets and white space alone.** A scan fails just where the runes are out of balance. -/
theorem Stands.error_mem_iff {before ahead : List Char} {depths : Bracket → Nat}
    (h : s.Stands before ahead depths)
    (hahead : ∀ r ∈ ahead, isWhite r = true ∨ ∃ b : Bracket, r = b.opening ∨ r = b.closing) :
    (∃ t ∈ s.run.tokens, t.kind = .error) ↔ ∃ b, Unbalanced b (depths b) ahead := by
  -- along the runes, each of which is a piece of its own; the counts vary
  induction ahead generalizing s before depths with
  | nil =>
    have hhead : s.cursor.head? = none := h.holds.head?_eq
    simp only [unbalanced_nil_iff]
    by_cases hopen : ∃ b, depths b ≠ 0
    · obtain ⟨b, hb⟩ := hopen
      rw [tokens_run_of_open hhead (b := b) (h.depth_eq ▸ hb)]
      exact iff_of_true ⟨_, List.mem_singleton_self _, rfl⟩ ⟨b, hb⟩
    · have hclosed : depths = fun _ => 0 := by
        funext b
        exact not_not.1 fun hb => hopen ⟨b, hb⟩
      subst hclosed
      rw [h.tokens_eq_nil]
      refine iff_of_false ?_ hopen
      rintro ⟨t, ht, -⟩
      cases ht
  | cons r ahead ih =>
    have hrest := fun q hq => hahead q (List.mem_cons_of_mem r hq)
    -- a token that is no failure makes no difference
    have hskip : ∀ {t : Token} {us : List Token}, t.kind ≠ .error →
        ((∃ u ∈ t :: us, u.kind = .error) ↔ ∃ u ∈ us, u.kind = .error) := by
      intro t us ht
      rw [List.exists_mem_cons_iff, or_iff_right ht]
    obtain hwhite | ⟨b, rfl | rfl⟩ := hahead r List.mem_cons_self
    · obtain ⟨s', hs', hrun⟩ := h.white hwhite
      rw [hrun, ih hs' hrest]
      exact exists_congr fun b => (unbalanced_white_iff hwhite ahead).symm
    · obtain ⟨s', hs', hrun⟩ := h.opening b
      rw [hrun, hskip (by rintro ⟨⟩), ih hs' hrest]
      exact exists_congr fun b' => (unbalanced_opening_iff depths b b' ahead).symm
    · cases hdepth : depths b with
      | zero =>
        -- the scan stops here, whatever comes after
        rw [h.stray hdepth]
        refine iff_of_true ⟨_, List.mem_singleton_self _, rfl⟩ ⟨b, ?_⟩
        rw [hdepth]
        exact unbalanced_stray b ahead
      | succ n =>
        obtain ⟨s', hs', hrun⟩ := h.closing b hdepth
        rw [hrun, hskip (by rintro ⟨⟩), ih hs' hrest]
        exact exists_congr fun b' => (unbalanced_closing_iff hdepth b' ahead).symm

/-- The alphabet of brackets and white space. -/
theorem isWhite_or_bracket {r : Char}
    (h : r ∈ ['(', ')', '\x7b', '\x7d', ' ', '\t', '\r', '\n']) :
    isWhite r = true ∨ ∃ b : Bracket, r = b.opening ∨ r = b.closing := by
  simp only [List.mem_cons, List.not_mem_nil, or_false] at h
  obtain rfl | rfl | rfl | rfl | h := h
  · exact .inr ⟨.paren, .inl rfl⟩
  · exact .inr ⟨.paren, .inr rfl⟩
  · exact .inr ⟨.brace, .inl rfl⟩
  · exact .inr ⟨.brace, .inr rfl⟩
  · exact .inl (isWhite_of_mem (by simpa using h))

/-! ### The whole scan -/

/-- The tokens of a source never close what they have not opened. -/
theorem exists_tallyAll_lex (source : String) (b : Bracket) :
    ∃ n, tallyAll b 0 (lex source) = some n := by
  obtain ⟨ts, s, state, hadv, -, hstop, htokens⟩ :=
    (ofSource source ⟨false⟩).ready_neutral.exists_advances
  have hlex : lex source = ts ++ (s.step state).tokens := htokens
  refine ⟨s.depth b, ?_⟩
  rw [hlex, tallyAll_append, (underway_of_advances hadv).tally b]
  exact tallyAll_of_stop hstop b (s.depth b)

/-- The count of a pair never falls below zero, along any first tokens. -/
theorem countP_closes_le_opens (h : ts <+: lex source) (b : Bracket) :
    ts.countP (·.closes b) ≤ ts.countP (·.opens b) := by
  obtain ⟨us, hlex⟩ := h
  obtain ⟨n, hn⟩ := exists_tallyAll_lex source b
  rw [← hlex, tallyAll_append, Option.bind_eq_some_iff] at hn
  -- the whole list can be counted, so its front can
  obtain ⟨m, hm, -⟩ := hn
  have hcount := countP_of_tallyAll hm
  omega

/-- Where the scan of a source stands between tokens, its tokens are those sent so far and those of
a scan from there. -/
theorem lex_eq_append (h : Advances (ofSource source ⟨false⟩) .neutral ts s .neutral) :
    lex source = ts ++ s.run.tokens :=
  h.tokens_runFrom (ofSource source ⟨false⟩).ready_neutral

/-- **Unclosed brackets.** -/
theorem ends_unclosed_iff (source : String) :
    (∃ ts e, lex source = ts ++ [e] ∧ e.kind = .error ∧ e.text = "unclosed bracket") ↔
      ∃ ts s, Advances (ofSource source ⟨false⟩) .neutral ts s .neutral ∧
        s.cursor.offset = source.utf8ByteSize ∧
        ∃ b, ts.countP (·.closes b) < ts.countP (·.opens b) := by
  refine ⟨?_, ?_⟩
  · rintro ⟨us, e, hends, hkind, htext⟩
    obtain ⟨ts, s, state, hadv, -, hstop, htokens⟩ :=
      (ofSource source ⟨false⟩).ready_neutral.exists_advances
    have hlex : lex source = ts ++ (s.step state).tokens := htokens
    have hway := underway_of_advances hadv
    have he : e ∈ ts ++ (s.step state).tokens := by
      rw [← hlex, hends]
      exact List.mem_append_right us (List.mem_singleton_self e)
    -- no step that leads on has emitted the failure
    obtain he | he := List.mem_append.1 he
    · have hplain := hway.plain e he
      rw [hkind] at hplain
      cases hplain
    · obtain ⟨rfl, hhead, b, hb⟩ := exists_open_of_stop hstop he hkind htext
      have hcount := countP_of_advances hadv b
      refine ⟨ts, s, hadv, ?_, b, by omega⟩
      -- no rune is ahead, so the offset is the size of the source
      rw [hway.sound.offset_eq_of_head? hhead, hway.source_eq]
  · rintro ⟨ts, s, hadv, hoffset, b, hlt⟩
    have hway := underway_of_advances hadv
    have hcount := countP_of_advances hadv b
    have hhead : s.cursor.head? = none :=
      hway.sound.head?_eq_none (hoffset.trans (congrArg _ hway.source_eq.symm))
    refine ⟨ts, ⟨.error, "unclosed bracket", Span.point s.cursor.offset⟩, ?_, rfl, rfl⟩
    rw [lex_eq_append hadv, tokens_run_of_open hhead (b := b) (by omega)]

/-- **Stray brackets.** -/
theorem refuses_closing_iff (h : Advances (ofSource source ⟨false⟩) .neutral ts s .neutral)
    (hhead : s.cursor.head? = some b.closing) :
    lex source = ts ++ [⟨.error, "unexpected character " ++ nameRune b.closing,
        ⟨s.cursor.offset, s.cursor.offset + 1⟩⟩] ↔
      ts.countP (·.opens b) = ts.countP (·.closes b) := by
  obtain ⟨before, ahead, hstands⟩ := (underway_of_advances h).stands rfl
  obtain ⟨ahead, rfl⟩ := hstands.holds.exists_cons hhead
  have hcount := countP_of_advances h b
  rw [lex_eq_append h, List.append_cancel_left_eq]
  cases hdepth : s.depth b with
  | zero =>
    rw [hstands.stray hdepth]
    exact iff_of_true rfl (by omega)
  | succ n =>
    -- the bracket is taken, and its token is no failure
    obtain ⟨s', -, hrun⟩ := hstands.closing b hdepth
    rw [hrun]
    refine iff_of_false ?_ (by omega)
    intro heq
    cases congrArg Token.kind (List.cons.inj heq).1

/-- **The brackets of a scan, each pair by itself.** No front of the tokens closes more than it
opens, and the tokens are in balance if the scan comes to its end. It ends with an unclosed bracket
just where it has read everything, between tokens, and opened more than it closed; it refuses a
closing bracket just where its pair is in balance. A source of brackets and white space alone fails
just where its runes are out of balance. -/
theorem lex_brackets (source : String) :
    (∀ ts, ts <+: lex source → ∀ b, ts.countP (·.closes b) ≤ ts.countP (·.opens b)) ∧
    ((∀ t ∈ lex source, t.kind ≠ .error ∧ t.kind ≠ .endMarker) →
      ∀ b, (lex source).countP (·.opens b) = (lex source).countP (·.closes b)) ∧
    ((∃ ts e, lex source = ts ++ [e] ∧ e.kind = .error ∧ e.text = "unclosed bracket") ↔
      ∃ ts s, Advances (ofSource source ⟨false⟩) .neutral ts s .neutral ∧
        s.cursor.offset = source.utf8ByteSize ∧
        ∃ b, ts.countP (·.closes b) < ts.countP (·.opens b)) ∧
    (∀ ts s b, Advances (ofSource source ⟨false⟩) .neutral ts s .neutral →
      s.cursor.head? = some b.closing →
      (lex source = ts ++ [⟨.error, "unexpected character " ++ nameRune b.closing,
          ⟨s.cursor.offset, s.cursor.offset + 1⟩⟩] ↔
        ts.countP (·.opens b) = ts.countP (·.closes b))) ∧
    ((∀ r ∈ source.toList, r ∈ ['(', ')', '\x7b', '\x7d', ' ', '\t', '\r', '\n']) →
      ((∃ t ∈ lex source, t.kind = .error) ↔
        ∃ b : Bracket, (∃ front, front <+: source.toList ∧
            front.count b.opening < front.count b.closing) ∨
          source.toList.count b.opening ≠ source.toList.count b.closing)) := by
  refine ⟨fun ts hts b => countP_closes_le_opens hts b, ?_, ends_unclosed_iff source,
    fun ts s b hadv hhead => refuses_closing_iff hadv hhead, ?_⟩
  · intro hclean b
    have htally := tallyAll_lex (fun t ht =>
      TokenKind.isFinal_eq_false (hclean t ht).1 (hclean t ht).2) b
    have hcount := countP_of_tallyAll htally
    rwa [Nat.zero_add, Nat.zero_add] at hcount
  · intro halphabet
    have hiff := (stands_ofSource source).error_mem_iff fun r hr =>
      isWhite_or_bracket (halphabet r hr)
    simp only [Unbalanced, Nat.zero_add] at hiff
    exact hiff

/-- A pair, a bracket that closes nothing, and a brace left open inside a pair. -/
theorem lex_brackets_of_pairs :
    (∀ b, [(⟨.bracketOpen, "(", ⟨0, 1⟩⟩ : Token)].countP (·.closes b) ≤
      [(⟨.bracketOpen, "(", ⟨0, 1⟩⟩ : Token)].countP (·.opens b)) ∧
    (∀ b, (lex "( )").countP (·.opens b) = (lex "( )").countP (·.closes b)) ∧
    lex ")" = [⟨.error, "unexpected character " ++ nameRune ')', ⟨0, 1⟩⟩] ∧
    ∃ t ∈ lex "(\x7b )", t.kind = .error := by
  have hlex : lex "( )" = [⟨.bracketOpen, "(", ⟨0, 1⟩⟩, ⟨.bracketClose, ")", ⟨2, 3⟩⟩] := by
    decide +kernel
  have hhead : (ofSource ")" ⟨false⟩).cursor.head? = some Bracket.paren.closing :=
    (stands_ofSource ")").holds.head?_eq
  obtain ⟨hfront, hbalance, -, -, -⟩ := lex_brackets "( )"
  obtain ⟨-, -, -, hstray, -⟩ := lex_brackets ")"
  obtain ⟨-, -, -, -, hfails⟩ := lex_brackets "(\x7b )"
  refine ⟨hfront _ ?_, hbalance ?_, ?_, ?_⟩
  · rw [hlex]
    exact List.cons_prefix_cons.2 ⟨rfl, List.nil_prefix⟩
  · rw [hlex]
    decide
  · exact (hstray [] _ .paren (.refl _ _) hhead).2 rfl
  · exact (hfails (by simp)).2 ⟨.brace, .inr (by decide)⟩

end Scanner

end DeclFront
