import DeclFront.Proofs.Print.Lexeme
import DeclFront.Proofs.Scan.Balance
import DeclFront.Proofs.Scan.Form

/-!
# Scanning tokens again

Where a token ends was decided by what came after it. Written out again and followed by something
else, it need not end in the same place: `-` before a digit is part of a number, and `/` before `/`
begins a comment. White space is the exception. It continues nothing, so a formed token before white
space is read back as it was (`Formed.exists_token`), whatever came after it the first time.

Hence all tokens of a scan can be written out again with separators between them, each of which
begins with white space, and a second scan finds them again (`lex_join_render`). Brackets cause no
trouble, for those of the first scan were in balance.
-/

namespace DeclFront

open Scanner

/-! ### Written tokens -/

/-- A token that is made of source text is written as its text. -/
theorem Token.render_toList_of_isWhole {kind : TokenKind} (h : kind.isWhole = true)
    (runes : List Char) (span : Span) :
    (Token.render ⟨kind, String.ofList runes, span⟩).toList = runes := by
  rw [Token.render_of_isWhole h, String.toList_ofList]

/-- A string is written between double quotes. -/
theorem Token.render_of_string {t : Token} (h : t.kind = .string) :
    t.render.toList = '"' :: (t.text.toList ++ ['"']) := by
  rw [Token.render, h, String.toList_append, String.toList_append]
  rfl

/-- A backtick quote is written between backticks. -/
theorem Token.render_of_quote {t : Token} (h : t.kind = .quote) :
    t.render.toList = '\x60' :: (t.text.toList ++ ['\x60']) := by
  rw [Token.render, h, String.toList_append, String.toList_append]
  rfl

/-- A delimited piece is written with its delimiters. -/
theorem Token.render_toList_of_encloses {state : ScanState} {form : Delimited}
    (encloses : Encloses state form) (body : List Char) {t : Token} (hkind : t.kind = form.kind)
    (htext : t.text.toList =
      state.collected ++ (body ++ if form.keepsCloser then form.closer else [])) :
    t.render.toList = state.dropped ++ (state.collected ++ (body ++ form.closer)) := by
  cases encloses with
  | string =>
    have hbody : t.text.toList = body := htext.trans (List.append_nil body)
    rw [Token.render_of_string hkind, hbody]
    rfl
  | quote =>
    have hbody : t.text.toList = body := htext.trans (List.append_nil body)
    rw [Token.render_of_quote hkind, hbody]
    rfl
  | lineComment =>
    have hbody : t.text.toList = '/' :: '/' :: body :=
      htext.trans (congrArg ('/' :: '/' :: ·) (List.append_nil body))
    have hline : ['/', '/'].isPrefixOf ('/' :: '/' :: body) = true := rfl
    rw [Token.render_of_comment hkind, hbody, if_pos hline, String.toList_append, hbody]
    rfl
  | blockComment =>
    -- the star after the slash tells it from a line comment
    have hbody : t.text.toList = '/' :: '*' :: (body ++ ['*', '/']) := htext
    have hblock : ¬ ['/', '/'].isPrefixOf ('/' :: '*' :: (body ++ ['*', '/'])) = true :=
      Bool.false_ne_true
    rw [Token.render_of_comment hkind, hbody, if_neg hblock, hbody]
    rfl

/-- A token that is no bracket leaves the counts as they are. -/
theorem depths_eq_of_tally {t : Token} {depths depths' : Bracket → Nat}
    (hkind : t.kind.isBracket = false) (h : ∀ b, t.tally b (depths b) = some (depths' b)) :
    depths' = depths := by
  funext b
  have htally := h b
  rw [Token.tally_of_kind hkind b, Option.some.injEq] at htally
  exact htally.symm

/-! ### One token -/

section Token

variable {kind : TokenKind} {runes : List Char} {span : Span} {s : Scanner}
  {before more : List Char} {depths depths' : Bracket → Nat}

/-- A token that is made of source text is read back where its text is. -/
theorem exists_token_of_isWhole (hwhole : kind.isWhole = true)
    (h : s.Stands before ((Token.render ⟨kind, String.ofList runes, span⟩).toList ++ more) depths)
    (hread : s.Stands before (runes ++ more) depths → ∃ s' : Scanner,
      s'.Stands (before ++ runes) more depths' ∧
        s.run.tokens = .ofPiece kind before runes :: s'.run.tokens) :
    ∃ (t : Token) (s' : Scanner), t.key = (kind, String.ofList runes) ∧
      s'.Stands (before ++ (Token.render ⟨kind, String.ofList runes, span⟩).toList) more depths' ∧
      s.run.tokens = t :: s'.run.tokens := by
  rw [Token.render_toList_of_isWhole hwhole] at h ⊢
  obtain ⟨s', hs', htokens⟩ := hread h
  exact ⟨_, s', rfl, hs', htokens⟩

/-- **A formed token is read back**, wherever it stands and if white space or nothing comes after
it. -/
theorem Formed.exists_token (hformed : Formed kind runes) (hmore : Inert more)
    (htally : ∀ b, Token.tally b (depths b) ⟨kind, String.ofList runes, span⟩ = some (depths' b))
    (h : s.Stands before ((Token.render ⟨kind, String.ofList runes, span⟩).toList ++ more) depths) :
    ∃ (t : Token) (s' : Scanner), t.key = (kind, String.ofList runes) ∧
      s'.Stands (before ++ (Token.render ⟨kind, String.ofList runes, span⟩).toList) more depths' ∧
      s.run.tokens = t :: s'.run.tokens := by
  cases hformed with
  | word hword =>
    rw [depths_eq_of_tally (TokenKind.isBracket_ofWord _) htally]
    refine exists_token_of_isWhole (TokenKind.isWhole_ofWord _) h fun h => ?_
    exact h.word hword fun q hq => Lexeme.ends_of_isWhite (hmore q hq)
  | opening b =>
    have hdepths : depths' = Function.update depths b (depths b + 1) := by
      funext b'
      have hopen := tally_update_of_opening depths b b' span
      exact Option.some.inj ((htally b').symm.trans hopen)
    rw [hdepths]
    exact exists_token_of_isWhole rfl h (Stands.opening b)
  | closing b =>
    -- its count was not nought, or there would be no count after it
    have hcount := htally b
    cases hdepth : depths b with
    | zero =>
      rw [hdepth] at hcount
      cases b <;> cases hcount
    | succ n =>
      have hdepths : depths' = Function.update depths b n := by
        funext b'
        exact Option.some.inj ((htally b').symm.trans (tally_update_of_closing hdepth b' span))
      rw [hdepths]
      exact exists_token_of_isWhole rfl h fun h => h.closing b hdepth
  | mark honset =>
    rw [depths_eq_of_tally rfl htally]
    refine exists_token_of_isWhole rfl h fun h => ?_
    have hstep := scanNeutral_eq_scanOnset h.holds.head?_eq
    rw [honset] at hstep
    exact h.emits hstep h.holds.past
  | slash =>
    rw [depths_eq_of_tally rfl htally]
    refine exists_token_of_isWhole rfl h fun h => ?_
    -- white space comes next, so no comment begins here
    have hnext : ∀ q, isWhite q = false → ([] ++ more).head? ≠ some q := fun q hq =>
      head?_append_ne hq nofun (.inr hmore)
    exact h.emits (h.slash (hnext '/' (by decide)) (hnext '*' (by decide))) h.holds.past
  | sign hsign =>
    rw [depths_eq_of_tally rfl htally]
    refine exists_token_of_isWhole rfl h fun h => ?_
    -- nor does a number begin at the sign
    have hnext : ([] ++ more).head?.any continuesSign = false :=
      solid_continuesSign.any_head?_append (.inr hmore)
    exact h.sign hsign hnext
  | number hsigned hreads =>
    rw [depths_eq_of_tally rfl htally]
    refine exists_token_of_isWhole rfl h fun h => ?_
    rw [List.append_assoc] at h
    exact h.number hsigned hreads rfl (.inr hmore)
  | char hbody =>
    rw [depths_eq_of_tally rfl htally]
    refine exists_token_of_isWhole rfl h fun h => ?_
    obtain ⟨c, hread, hc⟩ := hbody.readChar h.holds.past
    exact h.char hread hc
  | @delimited state form body encloses hcloses =>
    -- its delimiters are not all in its text, so it is written in another way
    have hkind : form.kind.isBracket = false := by cases encloses <;> rfl
    rw [depths_eq_of_tally hkind htally]
    have hrender := Token.render_toList_of_encloses encloses body
      (t := ⟨form.kind, String.ofList _, span⟩) rfl String.toList_ofList
    rw [hrender] at h ⊢
    have hfinds := hcloses.finds []
    rw [List.append_nil] at hfinds
    rw [List.append_assoc, List.append_assoc] at h
    obtain ⟨s', hs', htokens⟩ := h.delimited encloses hfinds
    exact ⟨_, s', rfl, hs', htokens⟩

end Token

/-! ### All tokens -/

/-- The tokens written out, each with a separator after it. -/
def renderWith (ts : List Token) (gaps : List String) : String :=
  String.join (List.zipWith (fun t gap => t.render ++ gap) ts gaps)

/-- A token, its separator, and the rest. -/
theorem renderWith_cons (t : Token) (ts : List Token) (gap : String) (gaps : List String) :
    (renderWith (t :: ts) (gap :: gaps)).toList =
      t.render.toList ++ (gap.toList ++ (renderWith ts gaps).toList) := by
  rw [renderWith, List.zipWith_cons_cons, String.join_cons, String.toList_append,
    String.toList_append, List.append_assoc]
  rfl

/-- Formed tokens in balance are found again, with nothing but comments between them. -/
theorem map_key_of_renderWith {ts : List Token} {gaps : List String}
    (hlength : gaps.length = ts.length) (hformed : ∀ t ∈ ts, Formed t.kind t.text.toList)
    (hgaps : ∀ gap ∈ gaps, gap.toList.head?.any isWhite = true ∧ Separator gap.toList)
    {s : Scanner} {before : List Char} {depths : Bracket → Nat}
    (hbalance : ∀ b, tallyAll b (depths b) ts = some 0)
    (h : s.Stands before (renderWith ts gaps).toList depths) :
    (s.run.tokens.filter (·.kind ≠ .comment)).map Token.key =
      (ts.filter (·.kind ≠ .comment)).map Token.key := by
  -- a token, then its separator: the scanner stands in front of the rest as in front of all
  induction ts generalizing gaps s before depths with
  | nil =>
    obtain rfl : gaps = [] := List.eq_nil_of_length_eq_zero hlength
    have hclosed : depths = fun _ => 0 := by
      funext b
      exact Option.some.inj (hbalance b)
    have hend : s.Stands before [] fun _ => 0 := hclosed ▸ h
    rw [hend.tokens_eq_nil]
  | cons t ts ih =>
    obtain ⟨gap, gaps, rfl⟩ := List.exists_cons_of_length_eq_add_one hlength
    rw [List.forall_mem_cons] at hformed hgaps
    obtain ⟨⟨hwhite, hseparator⟩, hgaps⟩ := hgaps
    -- the counts after the token, from which the rest is in balance
    have hsplit : ∀ b, ∃ n, t.tally b (depths b) = some n ∧ tallyAll b n ts = some 0 := by
      intro b
      have hall := hbalance b
      rwa [tallyAll_cons, Option.bind_eq_some_iff] at hall
    choose depths' htally hbalance' using hsplit
    have hinert : Inert (gap.toList ++ (renderWith ts gaps).toList) := by
      obtain ⟨r, hr, hwhite⟩ := (Option.any_eq_true _ _).1 hwhite
      obtain ⟨runes, hrunes⟩ := List.head?_eq_some_iff.1 hr
      rw [hrunes]
      exact inert_cons hwhite
    rw [renderWith_cons] at h
    have htext : (⟨t.kind, String.ofList t.text.toList, t.span⟩ : Token) = t := by
      rw [String.ofList_toList]
    rw [← htext] at htally h
    obtain ⟨t', s', hkey, hs', htokens⟩ := hformed.1.exists_token hinert htally h
    rw [htext] at hs'
    obtain ⟨comments, s'', hcomments, hs'', htokens'⟩ := hseparator.exists_tokens hs'
    have hnone : comments.filter (·.kind ≠ .comment) = [] := by
      refine List.filter_eq_nil_iff.2 fun u hu => ?_
      rw [hcomments u hu]
      decide
    have hrest := ih (Nat.succ.inj hlength) hformed.2 hgaps hbalance' hs''
    rw [String.ofList_toList] at hkey
    have hkind : t'.kind = t.kind := congrArg Prod.fst hkey
    rw [htokens, htokens', List.filter_cons, List.filter_append, hnone, List.nil_append,
      List.filter_cons, hkind]
    split_ifs with hcomment
    · rw [List.map_cons, List.map_cons, hrest]
      exact congrArg (· :: _) hkey
    · exact hrest

/-- **Scanning tokens again finds them again.** The tokens of a source that was scanned to its end
are written out with separators between them, each of which begins with white space and holds
nothing but comments. A scan of this text finds the same tokens in the same order, comments apart.
-/
theorem lex_renderWith (source : String) (gaps : List String)
    (hclean : ∀ t ∈ lex source, t.kind ≠ .error ∧ t.kind ≠ .endMarker)
    (hlength : gaps.length = (lex source).length)
    (hgaps : ∀ gap ∈ gaps, (∃ r ∈ [' ', '\t', '\r', '\n'], gap.toList.head? = some r) ∧
      ∀ t ∈ lex gap, t.kind = .comment) :
    ((lex (renderWith (lex source) gaps)).filter (·.kind ≠ .comment)).map Token.key =
      ((lex source).filter (·.kind ≠ .comment)).map Token.key := by
  have hplain : ∀ t ∈ lex source, t.kind.isFinal = false := fun t ht =>
    TokenKind.isFinal_eq_false (hclean t ht).1 (hclean t ht).2
  -- texts whose tokens are all comments are separators
  have hseparators : ∀ gap ∈ gaps, gap.toList.head?.any isWhite = true ∧ Separator gap.toList := by
    intro gap hgap
    obtain ⟨⟨r, hr, hhead⟩, hcomments⟩ := hgaps gap hgap
    refine ⟨?_, Separator.iff_lex.2 hcomments⟩
    rw [hhead]
    exact isWhite_of_mem hr
  exact map_key_of_renderWith hlength (formed_of_mem_lex hplain) hseparators (tallyAll_lex hplain)
    (stands_ofSource _)

/-- Tokens that stood close together, apart from each other by white space and comments. -/
theorem lex_renderWith_of_close_tokens :
    ((lex (renderWith (lex "x.y(-/\"\\\"\"+1)//\n")
        (List.replicate 7 "\t" ++ [" /**/"]))).filter (·.kind ≠ .comment)).map Token.key =
      [(.identifier, "x.y"), (.bracketOpen, "("), (.literal, "-"), (.literal, "/"),
        (.string, "\\\""), (.number, "+1"), (.bracketClose, ")")] := by
  have hlex : lex "x.y(-/\"\\\"\"+1)//\n" = [⟨.identifier, "x.y", ⟨0, 3⟩⟩,
      ⟨.bracketOpen, "(", ⟨3, 4⟩⟩, ⟨.literal, "-", ⟨4, 5⟩⟩, ⟨.literal, "/", ⟨5, 6⟩⟩,
      ⟨.string, "\\\"", ⟨7, 9⟩⟩, ⟨.number, "+1", ⟨10, 12⟩⟩, ⟨.bracketClose, ")", ⟨12, 13⟩⟩,
      ⟨.comment, "//", ⟨13, 15⟩⟩] := by decide +kernel
  have hgaps : ∀ gap ∈ List.replicate 7 "\t" ++ [" /**/"],
      (∃ r ∈ [' ', '\t', '\r', '\n'], gap.toList.head? = some r) ∧
        ∀ t ∈ lex gap, t.kind = .comment := by
    intro gap hgap
    obtain hgap | hgap := List.mem_append.1 hgap
    · obtain rfl := List.eq_of_mem_replicate hgap
      exact ⟨⟨'\t', by decide, rfl⟩, Separator.iff_lex.1 (.white rfl .nil)⟩
    · obtain rfl := List.mem_singleton.1 hgap
      have hcomment : Separator ('/' :: '*' :: ([] ++ (Delimited.blockComment.closer ++ []))) :=
        .comment .block trivial .nil
      exact ⟨⟨' ', by decide, rfl⟩, Separator.iff_lex.1 (.white rfl hcomment)⟩
  refine (lex_renderWith _ _ ?_ ?_ hgaps).trans ?_
  · rw [hlex]
    decide
  · rw [hlex]
    rfl
  · rw [hlex]
    rfl

end DeclFront
