import DeclFront.Proofs.Print.RoundTrip
import DeclFront.Proofs.Scan.Ending
import DeclFront.Shell.Execute

/-!
# What a parse passes over

A parser that succeeds might still have overlooked something: it ignores white space and comments,
it stops at an end marker, and it never asks for tokens that it does not need. This module says that
nothing is lost by that.

* White space and comments play no part at all (`Scope.trivia_irrelevant`).
* Where a source parses, its tokens, comments apart, are those of its tree (`Scope.Spells`), and
  behind them at most an end marker (`Scope.nothing_hidden`). In particular no failure of the scan
  goes unnoticed, so that the commands agree on which files are wrong.

The second rests on two facts from opposite sides: an end marker is the last token of a scan, and
the last token of a declaration is its closing brace. So no body is ever closed behind an end
marker.
-/

namespace DeclFront

open Grammar Scanner

/-! ### White space and comments -/

/-- The grammar sees of a list of tokens only those that matter. -/
theorem Scope.ofTokens_significant (ts : List Token) :
    Scope.ofTokens (significant ts) = Scope.ofTokens ts := by
  rw [Scope.ofTokens_eq_conclude, Scope.ofTokens_eq_conclude, significant,
    Progress.foldl_push_filter]

/-- Leaving out white space leaves out nothing that matters. -/
theorem significant_filter_isTrivia (ts : List Token) :
    significant (ts.filter (!·.kind.isTrivia)) = significant ts := by
  rw [significant, significant, List.filter_filter]
  refine List.filter_congr fun t _ => ?_
  rw [Token.isIgnorable, Bool.not_or]
  cases t.kind.isTrivia
  · rw [Bool.not_false, Bool.true_and, Bool.and_true]
  · rfl

/-- **White space and comments play no part.** A scan that does not report white space gives the
tokens of one that does, less the white space; a parse of any tokens is that of the tokens that are
neither white space nor comments; and so it makes no difference to a parse which of the two scans it
reads. -/
theorem Scope.trivia_irrelevant :
    (∀ source, lex source = (lexWith ⟨true⟩ source).filter (!·.kind.isTrivia)) ∧
    (∀ ts, Scope.ofTokens ts = Scope.ofTokens (ts.filter (!·.isIgnorable))) ∧
    ∀ source, Scope.ofTokens (lexWith ⟨true⟩ source) = Scope.ofTokens (lex source) := by
  refine ⟨lex_eq_filter ⟨true⟩, fun ts => (Scope.ofTokens_significant ts).symm, fun source => ?_⟩
  calc Scope.ofTokens (lexWith ⟨true⟩ source)
      = Scope.ofTokens (significant (lexWith ⟨true⟩ source)) :=
        (Scope.ofTokens_significant _).symm
    _ = Scope.ofTokens (significant (lex source)) := by
        rw [lex_eq_filter ⟨true⟩ source, significant_filter_isTrivia]
    _ = Scope.ofTokens (lex source) := Scope.ofTokens_significant _

/-- A scan that does not report white space finds comments and tokens that matter. -/
theorem filter_lex_eq_significant (source : String) :
    (lex source).filter (·.kind ≠ .comment) = significant (lex source) := by
  refine List.filter_congr fun t ht => ?_
  rw [lex_eq_filter ⟨false⟩ source, List.mem_filter, Bool.not_eq_true'] at ht
  rw [Token.isIgnorable, ht.2, Bool.false_or, decide_not]
  rfl

/-! ### The lexemes of a tree, with or without trailing commas -/

/-- The lexemes list the parameters, with a comma after the last of them or without. -/
inductive Parameter.Lists : List Parameter → List Lexeme → Prop
  | plain (ps : List Parameter) : Parameter.Lists ps (Parameter.listLexemes ps)
  | trailing (p : Parameter) (ps : List Parameter) :
      Parameter.Lists (p :: ps) (Parameter.listLexemes (p :: ps) ++ [.comma])

mutual

/-- The lexemes spell the declaration. -/
inductive FunctionDecl.Spells : FunctionDecl → List Lexeme → Prop
  | mk {name : String} {arguments : List Parameter} {body : List FunctionDecl}
      {params inner : List Lexeme} (hparams : Parameter.Lists arguments params)
      (hbody : Scope.Spells body inner) :
      FunctionDecl.Spells ⟨.keyword .function, name, arguments, body⟩
        (.word "func" :: .word name :: .opening .paren :: (params ++
          .closing .paren :: .opening .brace :: (inner ++ [.closing .brace])))

/-- The lexemes spell the declarations of the scope, one after another. -/
inductive Scope.Spells : List FunctionDecl → List Lexeme → Prop
  | nil : Scope.Spells [] []
  | cons {d : FunctionDecl} {ds : List FunctionDecl} {first rest : List Lexeme}
      (head : FunctionDecl.Spells d first) (tail : Scope.Spells ds rest) :
      Scope.Spells (d :: ds) (first ++ rest)

end

/-! ### The tokens of a derivation -/

/-- The kind of a verbal token is that of its text. -/
theorem Token.key_of_spelled {t : Token} (h : t.Spelled) (hverbal : t.kind.isVerbal = true) :
    t.key = (Lexeme.word t.text).key := by
  obtain ⟨-, hkind⟩ := h hverbal
  exact Prod.ext hkind rfl

/-- A bracket has one spelling. -/
theorem Token.key_of_opens {t : Token} {b : Bracket} (h : t.opens b = true) :
    t.key = (Lexeme.opening b).key := by
  rw [Token.opens, Bool.and_eq_true, beq_iff_eq, beq_iff_eq] at h
  exact Prod.ext h.1 h.2

/-- So has the bracket that closes it. -/
theorem Token.key_of_closes {t : Token} {b : Bracket} (h : t.closes b = true) :
    t.key = (Lexeme.closing b).key := by
  rw [Token.closes, Bool.and_eq_true, beq_iff_eq, beq_iff_eq] at h
  exact Prod.ext h.1 h.2

/-- And so has a comma. -/
theorem Token.key_of_comma {t : Token} (h : t.isLiteral "," = true) : t.key = Lexeme.comma.key := by
  rw [Token.isLiteral, Bool.and_eq_true, beq_iff_eq, beq_iff_eq] at h
  exact Prod.ext h.1 h.2

/-- The keyword of a declaration is always the same word. -/
theorem Token.key_of_function {t : Token} (h : t.Spelled) (hkind : t.kind = .keyword .function) :
    t.key = (Lexeme.word "func").key := by
  have htext : t.text = "func" := List.mem_singleton.1 (mem_spellings_of_spelled h hkind)
  rw [Token.key_of_spelled h (by rw [hkind]; rfl), htext]

/-- The two tokens of a parameter are its name and its type. -/
theorem Parameter.map_key_of_param {ts : List Token} {p : Parameter} (h : Param ts p)
    (hts : ∀ t ∈ ts, t.Spelled) : ts.map Token.key = p.lexemes.map Lexeme.key := by
  cases h with
  | @mk name type hname htype =>
    rw [List.forall_mem_cons, List.forall_mem_singleton] at hts
    rw [List.map_cons, List.map_singleton, Token.key_of_spelled hts.1 (by rw [hname]; rfl),
      Token.key_of_spelled hts.2 (by rw [htype]; rfl)]
    rfl

/-- Every further parameter has a comma before it. -/
theorem Parameter.map_key_of_moreParams {ts : List Token} {ps : List Parameter}
    (h : MoreParams ts ps) (hts : ∀ t ∈ ts, t.Spelled) :
    ts.map Token.key = (Parameter.moreLexemes ps).map Lexeme.key := by
  induction h with
  | nil => rfl
  | @cons comma ts us p ps hcomma head tail ih =>
    rw [List.forall_mem_cons, List.forall_mem_append] at hts
    rw [Parameter.moreLexemes, List.flatMap_cons, List.map_cons, List.map_append,
      Token.key_of_comma hcomma, Parameter.map_key_of_param head hts.2.1, ih hts.2.2,
      List.map_append]
    rfl

/-- What derives from parameters lists them. -/
theorem Parameter.exists_lists {ts : List Token} {ps : List Parameter} (h : Params ts ps)
    (hts : ∀ t ∈ ts, t.Spelled) :
    ∃ ls, Parameter.Lists ps ls ∧ ts.map Token.key = ls.map Lexeme.key := by
  cases h with
  | empty => exact ⟨_, .plain [], rfl⟩
  | @list ts us cs p ps head tail trailing =>
    rw [List.forall_mem_append, List.forall_mem_append] at hts
    have hlist : (ts ++ us).map Token.key = (Parameter.listLexemes (p :: ps)).map Lexeme.key := by
      rw [Parameter.listLexemes, List.map_append, List.map_append,
        Parameter.map_key_of_param head hts.1, Parameter.map_key_of_moreParams tail hts.2.1]
    -- the list is the same with a comma at its end or without
    cases trailing with
    | absent =>
      rw [List.append_nil]
      exact ⟨_, .plain (p :: ps), hlist⟩
    | @present comma hcomma =>
      refine ⟨_, .trailing p ps, ?_⟩
      calc (ts ++ (us ++ [comma])).map Token.key
          = (ts ++ us).map Token.key ++ [comma.key] := by
            rw [← List.append_assoc, List.map_append, List.map_singleton]
        _ = (Parameter.listLexemes (p :: ps) ++ [Lexeme.comma]).map Lexeme.key := by
            rw [hlist, Token.key_of_comma hcomma, List.map_append, List.map_singleton]

mutual

/-- What derives from a declaration, with no end marker inside it, spells the declaration. -/
theorem FunctionDecl.exists_spells : ∀ (d : FunctionDecl) {ts : List Token}, Func ts d →
    (∀ t ∈ ts, t.Spelled ∧ t.kind ≠ .endMarker) →
    ∃ ls, FunctionDecl.Spells d ls ∧ ts.map Token.key = ls.map Lexeme.key
  | ⟨_, _, _, body⟩, _, .mk hkeyword hname hlparen params hrparen hlbrace funcs marker hrbrace,
      hts => by
    simp only [List.forall_mem_cons, List.forall_mem_append] at hts
    obtain ⟨hfunc, hnamed, -, hparams, -, -, hbody, hmarker, -⟩ := hts
    obtain ⟨ps, hlists, hkeys⟩ := Parameter.exists_lists params fun t ht => (hparams t ht).1
    obtain ⟨bs, hspells, hkeys'⟩ := Scope.exists_spells body funcs hbody
    refine ⟨_, .mk hlists hspells, ?_⟩
    cases marker with
    -- the grammar allows an end marker before the brace, the source does not
    | present hend => exact absurd hend (hmarker _ (List.mem_singleton_self _)).2
    | absent =>
      simp only [List.map_cons, List.map_append, List.map_nil, List.nil_append, hkeys, hkeys',
        Token.key_of_function hfunc.1 hkeyword, Token.key_of_spelled hnamed.1 (by rw [hname]; rfl),
        Token.key_of_opens hlparen, Token.key_of_closes hrparen, Token.key_of_opens hlbrace,
        Token.key_of_closes hrbrace]

/-- What derives from the declarations of a scope spells them in their order. -/
theorem Scope.exists_spells : ∀ (T : List FunctionDecl) {ts : List Token}, Funcs ts T →
    (∀ t ∈ ts, t.Spelled ∧ t.kind ≠ .endMarker) →
    ∃ ls, Scope.Spells T ls ∧ ts.map Token.key = ls.map Lexeme.key
  | [], _, .nil, _ => ⟨[], .nil, rfl⟩
  | d :: ds, _, .cons head tail, hts => by
    rw [List.forall_mem_append] at hts
    obtain ⟨first, hfirst, hkeys⟩ := FunctionDecl.exists_spells d head hts.1
    obtain ⟨rest, hrest, hkeys'⟩ := Scope.exists_spells ds tail hts.2
    refine ⟨first ++ rest, .cons hfirst hrest, ?_⟩
    rw [List.map_append, List.map_append, hkeys, hkeys']

end

/-! ### The end marker comes last -/

namespace Grammar

/-- The last token of a declaration is its closing brace. -/
theorem Func.exists_concat {ts : List Token} {d : FunctionDecl} (h : Func ts d) :
    ∃ us rbrace, ts = us ++ [rbrace] ∧ rbrace.closes .brace = true := by
  cases h with
  | @mk keyword name lparen rparen lbrace rbrace ps bs es _ _ _ _ _ _ _ _ _ _ hrbrace =>
    refine ⟨keyword :: name :: lparen :: (ps ++ rparen :: lbrace :: (bs ++ es)), rbrace, ?_,
      hrbrace⟩
    simp only [List.cons_append, List.append_assoc]

/-- Declarations end with a closing brace. -/
theorem Funcs.eq_nil_or_concat : ∀ {T : Scope} {ts : List Token}, Funcs ts T →
    ts = [] ∨ ∃ us rbrace, ts = us ++ [rbrace] ∧ rbrace.closes .brace = true
  | [], _, .nil => .inl rfl
  | _ :: _, _, .cons head tail => by
    refine .inr ?_
    -- the last of the declarations ends the list, whatever stands before it
    obtain rfl | ⟨us, rbrace, rfl, hrbrace⟩ := Funcs.eq_nil_or_concat tail
    · rw [List.append_nil]
      exact head.exists_concat
    · exact ⟨_, rbrace, (List.append_assoc _ us _).symm, hrbrace⟩

end Grammar

/-- An end marker among the significant tokens of a source is the last of them. -/
theorem eq_of_significant_lex_eq_append {source : String} {us vs : List Token} {t : Token}
    (h : significant (lex source) = us ++ t :: vs) (hkind : t.kind = .endMarker) :
    vs = [] ∧ t = ⟨.endMarker, "", .point source.utf8ByteSize⟩ := by
  obtain ⟨us', ts, hlex, -, hts⟩ := List.filter_eq_append_iff.1 h
  obtain ⟨ws, vs', rfl, -, -, rfl⟩ := List.filter_eq_cons_iff.1 hts
  -- the tokens left out beforehand and behind are put back, to speak of the whole scan
  rw [← List.append_assoc] at hlex
  obtain ⟨rfl, ht⟩ := eq_of_lex_eq_append_endMarker hlex hkind
  exact ⟨rfl, ht⟩

/-- No declaration of a source has an end marker inside. -/
theorem Grammar.Funcs.kind_ne_endMarker {source : String} {ts rest : List Token} {T : Scope}
    (h : Funcs ts T) (hlex : significant (lex source) = ts ++ rest) :
    ∀ t ∈ ts, t.kind ≠ .endMarker := by
  intro t ht hkind
  -- it would be the last token of all, and the last of the declarations is a brace
  obtain ⟨us, vs, rfl⟩ := List.append_of_mem ht
  rw [List.append_assoc, List.cons_append] at hlex
  obtain ⟨hlast, -⟩ := eq_of_significant_lex_eq_append hlex hkind
  obtain rfl : vs = [] := (List.append_eq_nil_iff.1 hlast).1
  obtain hnil | ⟨us', rbrace, hconcat, hrbrace⟩ := h.eq_nil_or_concat
  · exact List.append_ne_nil_of_right_ne_nil us (List.cons_ne_nil t []) hnil
  · obtain ⟨-, hlasts⟩ := List.append_inj' hconcat rfl
    obtain rfl := List.singleton_inj.1 hlasts
    rw [Token.kind_of_closes hrbrace] at hkind
    cases hkind

/-! ### The tokens of a source that parses -/

section Accepted

variable {source : String} {T : Scope}

/-- The tokens of a source that parses are those of its tree, and at most an end marker. -/
theorem Scope.exists_spells_of_ofSource (h : Scope.ofSource source = .ok T) :
    ∃ lexemes ending, Scope.Spells T lexemes ∧
      (significant (lex source)).map Token.key = lexemes.map Lexeme.key ++ ending ∧
      (ending = [] ∨ ending = [(.endMarker, "")]) := by
  rw [Scope.ofSource_eq_ofTokens, Scope.ofTokens_eq_ok_iff_awaits, Awaits.start_iff] at h
  -- the grammar knows kinds only; that they were spelled is known from the scan
  have hspelled : ∀ t ∈ significant (lex source), t.Spelled := fun t ht =>
    Token.spelled_of_mem_lexWith ⟨false⟩ source t (List.mem_filter.1 ht).1
  obtain ⟨hprog, -⟩ := h
  generalize htokens : significant (lex source) = ts at hprog hspelled
  cases hprog with
  | complete funcs =>
    have hmarker := funcs.kind_ne_endMarker (htokens.trans (List.append_nil ts).symm)
    obtain ⟨ls, hspells, hkeys⟩ := Scope.exists_spells T funcs fun t ht =>
      ⟨hspelled t ht, hmarker t ht⟩
    exact ⟨ls, [], hspells, by rw [hkeys, List.append_nil], .inl rfl⟩
  | @cut us rest marker _ funcs hkind =>
    have hmarker := funcs.kind_ne_endMarker htokens
    obtain ⟨ls, hspells, hkeys⟩ := Scope.exists_spells T funcs fun t ht =>
      ⟨hspelled t (List.mem_append_left _ ht), hmarker t ht⟩
    -- whatever the grammar allows behind the marker, nothing stands there
    obtain ⟨rfl, rfl⟩ := eq_of_significant_lex_eq_append htokens hkind
    exact ⟨ls, _, hspells, by rw [List.map_append, hkeys]; rfl, .inr rfl⟩

theorem Lexeme.isWhole_kind (l : Lexeme) : l.kind.isWhole = true := by
  cases l with
  | word text => exact TokenKind.isWhole_ofWord text
  | opening b | closing b | comma => rfl

/-- A source that parses has comments, whole tokens and end markers only. -/
theorem Scope.isWhole_of_ofSource (h : Scope.ofSource source = .ok T) :
    ∀ t ∈ lex source, t.kind = .comment ∨ t.kind.isWhole = true ∨ t.kind = .endMarker := by
  intro t ht
  by_cases hcomment : t.kind = .comment
  · exact .inl hcomment
  · refine .inr ?_
    obtain ⟨ls, ending, -, hkeys, hending⟩ := Scope.exists_spells_of_ofSource h
    have hmem : t.key ∈ (significant (lex source)).map Token.key := by
      rw [← filter_lex_eq_significant]
      exact List.mem_map_of_mem (List.mem_filter.2 ⟨ht, decide_eq_true hcomment⟩)
    rw [hkeys, List.mem_append] at hmem
    obtain hmem | hmem := hmem
    · -- a token of the tree
      obtain ⟨l, -, hl⟩ := List.mem_map.1 hmem
      have hkind : l.kind = t.kind := congrArg Prod.fst hl
      exact .inl (hkind ▸ l.isWhole_kind)
    · -- or the end marker behind it
      obtain rfl | rfl := hending
      · cases hmem
      · exact .inr (congrArg Prod.fst (List.mem_singleton.1 hmem))

/-- A source that parses was scanned without a failure, whatever the scan reports. -/
theorem Scope.kind_ne_error_of_ofSource (h : Scope.ofSource source = .ok T)
    (options : ScanOptions) : ∀ t ∈ lexWith options source, t.kind ≠ .error := by
  intro t ht hkind
  -- a failure is reported with white space or without
  have hlex : t ∈ lex source := by
    rw [lex_eq_filter options, List.mem_filter, hkind]
    exact ⟨ht, rfl⟩
  have hsorts := Scope.isWhole_of_ofSource h t hlex
  rw [hkind] at hsorts
  obtain hsort | hsort | hsort := hsorts <;> cases hsort

/-- The source breaks off between tokens: after some of its tokens, it ends in runes that are left
dangling. -/
def BreaksOff (source : String) : Prop :=
  ∃ ts tail, ts <+: lexWith ⟨true⟩ source ∧ source.toList = (renderAll ts).toList ++ tail ∧
    Dangling tail

/-- A source that parses and has an end marker breaks off between tokens. -/
theorem Scope.breaksOff_of_ofSource (h : Scope.ofSource source = .ok T) {marker : Token}
    (hmem : marker ∈ lex source) (hkind : marker.kind = .endMarker) : BreaksOff source := by
  obtain ⟨ts, ending, hall, hlex, hplain, hending⟩ := exists_ending source
  have hsorts := Scope.isWhole_of_ofSource h
  -- tokens before the ending are of no final kind, so the marker is in the ending
  have hlast : marker ∈ ending := by
    rw [hlex, List.mem_append] at hmem
    refine hmem.resolve_left fun hmem => ?_
    have hfinal := hplain marker (List.mem_filter.1 hmem).1
    rw [hkind] at hfinal
    cases hfinal
  cases hending with
  | finished => cases hlast
  | failed e error =>
    rw [List.mem_singleton.1 hlast, error] at hkind
    cases hkind
  | @cutOff state form ahead encloses lacks whole =>
    refine ⟨ts, state.dropped ++ (state.collected ++ ahead), ⟨_, hall.symm⟩, whole, ?_⟩
    -- a token of the piece that breaks off is the token of a comment
    have hpiece : state.collected ++ ahead ≠ [] → form.kind = .comment := by
      intro hne
      have hmem : Token.ofPiece form.kind ((renderAll ts).toList ++ state.dropped)
          (state.collected ++ ahead) ∈ lex source := by
        rw [hlex, if_neg hne]
        exact List.mem_append_right _ List.mem_cons_self
      obtain hsort | hsort | hsort := hsorts _ hmem
      · exact hsort
      · cases encloses <;> cases hsort
      · cases encloses <;> cases hsort
    cases encloses with
    -- a constant that breaks off behind its quote would leave a token of its own
    | string =>
      obtain rfl : ahead = [] := by
        by_contra hne
        cases hpiece hne
      exact .string
    | quote =>
      obtain rfl : ahead = [] := by
        by_contra hne
        cases hpiece hne
      exact .quote
    | lineComment =>
      refine .lineComment fun hmem => lacks.not_infix rfl ?_
      obtain ⟨before, after, rfl⟩ := List.append_of_mem hmem
      exact ⟨before, after, by simp [Delimited.lineComment]⟩
    | blockComment => exact .blockComment (lacks.not_infix rfl)

end Accepted

/-! ### The commands -/

section Commands

variable {read : FileReader} {file source : String}

/-- A command that needs the tree fails where there is none. -/
theorem exitCode_withTree (hread : read file = .ok source) (print : Scope → String) :
    (withTree read file print).exitCode =
      match Scope.ofSource source with
      | .ok _ => 0
      | .error _ => 1 := by
  rw [withTree, withSource, hread]
  show RunResult.exitCode (match Scope.ofSource source with
    | .ok tree => .success (print tree)
    | .error error => .failed (.wrongSource file error)) = _
  cases Scope.ofSource source <;> rfl

/-- Listing the tokens of a file that parses succeeds. -/
theorem exitCode_runLex {T : Scope} (hread : read file = .ok source)
    (h : Scope.ofSource source = .ok T) (trivia json : Bool) :
    (runLex read file trivia json).exitCode = 0 := by
  -- a listing reports a failure at its end, and there is none
  have hnone : reportedError? (lexWith ⟨trivia⟩ source) = none := by
    unfold reportedError?
    split
    · next t hlast =>
      exact if_neg (Scope.kind_ne_error_of_ofSource h ⟨trivia⟩ t (List.mem_of_getLast? hlast))
    · rfl
  rw [runLex, withSource, hread]
  simp only [hnone]
  rfl

end Commands

/-- **A parse hides nothing.** Where a source parses, no scan of it fails, and its tokens, comments
apart, are those of its tree; an end marker may follow if the source breaks off in a comment or
after an opening quote. So a file is listed without a failure if it passes a check or is shown, and
it neither passes a check nor is shown if listing it fails. -/
theorem Scope.nothing_hidden :
    (∀ source T, Scope.ofSource source = .ok T →
      (∀ options, ∀ t ∈ lexWith options source, t.kind ≠ .error) ∧
      ∃ lexemes ending, Scope.Spells T lexemes ∧
        ((lex source).filter (·.kind ≠ .comment)).map Token.key =
          lexemes.map Lexeme.key ++ ending ∧
        (ending = [] ∨ ending = [(.endMarker, "")] ∧ BreaksOff source)) ∧
    ∀ (read : FileReader) file source, read file = .ok source →
      ((((Command.check file).run read).exitCode = 0 ∨
          ∃ json, ((Command.parse file json).run read).exitCode = 0) →
        ∀ trivia json, ((Command.lex file trivia json).run read).exitCode = 0) ∧
      ((∃ trivia json, ((Command.lex file trivia json).run read).exitCode = 1) →
        ((Command.check file).run read).exitCode = 1 ∧
          ∀ json, ((Command.parse file json).run read).exitCode = 1) := by
  refine ⟨fun source T h => ⟨Scope.kind_ne_error_of_ofSource h, ?_⟩,
    fun read file source hread => ?_⟩
  · rw [filter_lex_eq_significant]
    obtain ⟨ls, ending, hspells, hkeys, hending⟩ := Scope.exists_spells_of_ofSource h
    refine ⟨ls, ending, hspells, hkeys, hending.imp_right fun hmarker => ⟨hmarker, ?_⟩⟩
    have hmem : (TokenKind.endMarker, "") ∈ (significant (lex source)).map Token.key := by
      rw [hkeys, hmarker]
      exact List.mem_concat_self
    obtain ⟨marker, hmarker, hkey⟩ := List.mem_map.1 hmem
    exact Scope.breaksOff_of_ofSource h (List.mem_filter.1 hmarker).1 (congrArg Prod.fst hkey)
  · show ((runCheck read file).exitCode = 0 ∨ (∃ json, (runParse read file json).exitCode = 0) →
        ∀ trivia json, (runLex read file trivia json).exitCode = 0) ∧
      ((∃ trivia json, (runLex read file trivia json).exitCode = 1) →
        (runCheck read file).exitCode = 1 ∧ ∀ json, (runParse read file json).exitCode = 1)
    simp only [runCheck, runParse, exitCode_withTree hread]
    cases h : Scope.ofSource source with
    | ok T =>
      refine ⟨fun _ => exitCode_runLex hread h, ?_⟩
      rintro ⟨trivia, json, hone⟩
      rw [exitCode_runLex hread h] at hone
      cases hone
    | error e =>
      refine ⟨?_, fun _ => ⟨rfl, fun _ => rfl⟩⟩
      rintro (hzero | ⟨json, hzero⟩) <;> cases hzero

/-- A trailing comma, and a comment that breaks off; and a bracket that is not closed. -/
theorem Scope.nothing_hidden_of_open_comment :
    (Scope.ofSource "func f(a byte,)\x7b\x7d//" =
        .ok [⟨.keyword .function, "f", [⟨"a", "byte"⟩], []⟩] ∧
      (∀ options, ∀ t ∈ lexWith options "func f(a byte,)\x7b\x7d//", t.kind ≠ .error) ∧
      ∃ lexemes ending,
        Scope.Spells [⟨.keyword .function, "f", [⟨"a", "byte"⟩], []⟩] lexemes ∧
        ((lex "func f(a byte,)\x7b\x7d//").filter (·.kind ≠ .comment)).map Token.key =
          lexemes.map Lexeme.key ++ ending ∧
        (ending = [] ∨
          ending = [(.endMarker, "")] ∧ BreaksOff "func f(a byte,)\x7b\x7d//")) ∧
    (((Command.check "complete").run fun _ => .ok "func f(a byte,)\x7b\x7d//").exitCode = 0 ∧
      ∀ trivia json, ((Command.lex "complete" trivia json).run fun _ =>
        .ok "func f(a byte,)\x7b\x7d//").exitCode = 0) ∧
    ((Command.lex "open" false false).run fun _ => .ok "(").exitCode = 1 ∧
    ((Command.check "open").run fun _ => .ok "(").exitCode = 1 ∧
    ∀ json, ((Command.parse "open" json).run fun _ => .ok "(").exitCode = 1 := by
  have hparse : Scope.ofSource "func f(a byte,)\x7b\x7d//" =
      .ok [⟨.keyword .function, "f", [⟨"a", "byte"⟩], []⟩] := by
    decide +kernel
  have hcheck :
      ((Command.check "complete").run fun _ => .ok "func f(a byte,)\x7b\x7d//").exitCode = 0 := by
    decide +kernel
  have hlex : ((Command.lex "open" false false).run fun _ => .ok "(").exitCode = 1 := by
    decide +kernel
  refine ⟨⟨hparse, Scope.nothing_hidden.1 _ _ hparse⟩, ⟨hcheck, ?_⟩, hlex, ?_⟩
  -- a check that succeeds speaks for the listing, and a listing that fails for the check
  · exact (Scope.nothing_hidden.2 _ "complete" "func f(a byte,)\x7b\x7d//" rfl).1 (.inl hcheck)
  · exact (Scope.nothing_hidden.2 _ "open" "(" rfl).2 ⟨false, false, hlex⟩

end DeclFront
