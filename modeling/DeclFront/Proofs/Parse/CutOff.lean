import DeclFront.Proofs.Parse.Nesting

/-!
# Tokens that are cut off

The tokens of a program may stop anywhere: they run out, an end marker says that the source ended
too early, or the scan has failed. What a parse reports then is decided by the place of the cut, and
the place is known from the last token before it, or from the last two where the last one is a name
(`missing?`).

* Inside a declaration the part that comes next is missing, however the tokens stop
  (`MissingPart.failure`).
* Between two statements a failure of the scan is passed on. Otherwise the source is complete,
  unless a body is open. An end marker closes the innermost body, and then its brace is missing. If
  it comes after all, the parse goes on as if the marker had only been noted
  (`Located.ofTokens_eq_of_closed`).

`CutOff` lists these cases, and `Scope.ofTokens_cutOff` says that they are all. The proof follows
the tokens up to the cut once, with what is missing as an invariant of the parse (`Located`), and
then looks at a single reaction.
-/

namespace DeclFront

open Grammar

variable {σ : Type}

/-! ### Cuts -/

/-- How a list of tokens stops. Behind an end marker or a failure of the scan anything may stand. -/
inductive Cut where
  | exhausted
  | marker (t : Token) (hkind : t.kind = .endMarker) (after : List Token)
  | failure (t : Token) (hkind : t.kind = .error) (after : List Token)

namespace Cut

/-- The tokens of the cut and behind it. -/
def tokens : Cut → List Token
  | exhausted => []
  | marker t _ after | failure t _ after => t :: after

/-- What stands at the cut, in words. -/
def found : Cut → String
  | exhausted | marker .. => "end of input"
  | failure t .. => "lexical error: " ++ t.text

/-- Where the tokens `before` are cut off. -/
def span (before : List Token) : Cut → Span
  | exhausted => .point (furthestEnd before)
  | marker t .. | failure t .. => t.span

/-- The token at the cut. -/
def token? : Cut → Option Token
  | exhausted => none
  | marker t .. | failure t .. => some t

/-- The reader of a machine that has met the cut. -/
def reader (r : Reader Unit) : Cut → Reader Unit
  | exhausted => r
  | marker t .. | failure t .. => r.note t

/-- At each of them the tokens stop. -/
theorem isCutOff_token? (cut : Cut) : isCutOff cut.token? = true := by
  cases cut with
  | exhausted => rfl
  | marker t hkind after => simp [token?, isCutOff, hkind]
  | failure t hkind after => simp [token?, isCutOff, hkind]

/-- The words are those of the token at the cut. -/
theorem found_token? (cut : Cut) : Token.found cut.token? = cut.found := by
  cases cut with
  | exhausted => rfl
  | marker t hkind after => simp [token?, Token.found, found, hkind]
  | failure t hkind after => simp [token?, Token.found, found, hkind]

/-- A failure at the cut lies where the cut does. -/
theorem spanOf_token? {r : Reader Unit} {before : List Token}
    (hfurthest : r.furthest = furthestEnd before) (cut : Cut) :
    (cut.reader r).spanOf cut.token? = cut.span before := by
  cases cut with
  | exhausted => exact congrArg Span.point hfurthest
  | marker t hkind after => rfl
  | failure t hkind after => rfl

/-- What stands at a cut matters to the grammar. -/
theorem isIgnorable_of_isCutOff {t : Token} (h : isCutOff (some t) = true) :
    t.isIgnorable = false := by
  have hkind : t.kind = .endMarker ∨ t.kind = .error := by
    simpa [isCutOff] using h
  rw [Token.isIgnorable]
  obtain h | h := hkind <;> rw [h] <;> rfl

end Cut

/-! ### What is missing -/

/-- A part of a declaration that its tokens lead up to. The arguments are one part, from the opening
parenthesis to the closing one. -/
inductive MissingPart where
  | name
  | openParams
  | arguments
  | body
deriving DecidableEq, Repr

/-- The failure of a declaration that is cut off before the part. -/
def MissingPart.failure (words : String) (span : Span) : MissingPart → SyntaxError
  | name => .expectedName words span
  | openParams => .expectedOpening .paren words span
  | arguments => .argumentsCutOff words span
  | body => .expectedOpening .brace words span

/-- What a declaration lacks behind the token `t`, if `previous` stands before `t`: nothing where a
body has been opened or closed. A name is that of the declaration directly behind its keyword, and
that of an argument anywhere else. -/
def Token.missing? (previous : Option Token) (t : Token) : Option MissingPart :=
  match t.kind with
  | .keyword .function => some .name
  | .identifier =>
    if previous.any (·.kind == .keyword .function) then some .openParams else some .arguments
  | .keyword .typeName | .literal => some .arguments
  | .bracketOpen => if t.opens .paren then some .arguments else none
  | .bracketClose => if t.closes .paren then some .body else none
  | _ => none

/-- What the last declaration of a list of significant tokens lacks, if it is not complete up to a
body. -/
def missing? (before : List Token) : Option MissingPart :=
  before.getLast?.bind (·.missing? before.dropLast.getLast?)

/-- The last token decides, and the one before it if it is a name. -/
theorem missing?_concat (before : List Token) (t : Token) :
    missing? (before ++ [t]) = t.missing? before.getLast? := by
  rw [missing?, List.getLast?_concat, List.dropLast_concat]
  rfl

/-- A name is missing directly behind the keyword of a declaration. -/
theorem missing?_eq_name_iff (before : List Token) :
    missing? before = some .name ↔
      before.getLast?.any (·.kind == .keyword .function) = true := by
  unfold missing?
  cases before.getLast? with
  | none => simp
  | some t =>
    rw [Option.bind_some, Option.any_some, beq_iff_eq, Token.missing?]
    constructor
    · intro h
      -- no other kind leads to the name of a declaration
      split at h
      · assumption
      all_goals (repeat' split at h) <;> cases h
    · intro h
      rw [h]

/-- What a parse waits for, if it is a part of a declaration before its body. -/
def Focus.missing? : Focus → Option MissingPart
  | .declaration _ _ (.step .name) => some .name
  | .declaration _ _ (.step .openParams) => some .openParams
  | .declaration _ _ (.step .parameter) | .declaration _ _ (.argumentType _)
  | .declaration _ _ (.step .delimiter) => some .arguments
  | .declaration _ _ (.step .body) => some .body
  | _ => none

namespace Machine

variable {m m' : Machine Unit} {t : Token}

/-- A move that does not put its token back leads to what is missing behind the token. -/
theorem Move.missing?_eq {r : Reader σ} {enclosing : List OpenDecl} {focus : Focus}
    {m' : Machine σ} {previous : Option Token} (h : Move r t enclosing focus m')
    (hback : m'.reader.backlog = r.backlog) (hmarker : t.kind ≠ .endMarker)
    (hname : t.kind = .identifier →
      (focus.missing? = some .name ↔ previous.any (·.kind == .keyword .function) = true)) :
    m'.focus.missing? = t.missing? previous := by
  cases h with
  -- these put their token back
  | declare | endBody | noParameter | noComma =>
    exact absurd (congrArg List.length hback) (by simp)
  | cutBody h => exact absurd h hmarker
  | keyword h | argumentType h => simp [Focus.missing?, Token.missing?, h]
  | name h =>
    have hprevious := (hname h).1 rfl
    simp [Focus.missing?, Token.missing?, h, hprevious]
  | argument h =>
    -- the name of an argument does not stand behind a keyword
    have hprevious := (not_congr (hname h)).1 (by simp [Focus.missing?])
    simp [Focus.missing?, Token.missing?, h, hprevious]
  | comma h => simp [Focus.missing?, Token.missing?, Token.kind_of_isLiteral h]
  | openParams h => simp [Focus.missing?, Token.missing?, Token.kind_of_opens h, h]
  | enterBody h =>
    simp [Focus.missing?, Token.missing?, Token.kind_of_opens h, Token.opens_eq h .paren]
  | closeParams h => simp [Focus.missing?, Token.missing?, Token.kind_of_closes h, h]
  | closeBody h =>
    simp [Focus.missing?, Token.missing?, Token.kind_of_closes h, Token.closes_eq h .paren]

/-- No name is put back. -/
theorem Move.kind_ne_identifier {r : Reader σ} {enclosing : List OpenDecl} {focus : Focus}
    {m' : Machine σ} (h : Move r t enclosing focus m')
    (hback : m'.reader.backlog = t :: r.backlog) : t.kind ≠ .identifier := by
  cases h with
  | declare h =>
    rw [h]
    decide
  | endBody h | noParameter h | noComma h =>
    rw [Token.kind_of_closes h]
    decide
  | _ => exact absurd (congrArg List.length hback) (by simp)

/-- Where a part of a declaration is missing, a parse that is cut off says so. -/
theorem onToken_of_missing {m : Machine σ} {r : Reader σ} {part : MissingPart}
    {token : Option Token} (hpart : m.focus.missing? = some part)
    (hcut : isCutOff token = true) :
    m.onToken .unit r token =
      m.abandon (part.failure (Token.found token) (r.spanOf token)) r := by
  obtain ⟨reader, enclosing, focus⟩ := m
  have hpart : focus.missing? = some part := hpart
  cases token with
  -- at the end of the tokens every step fails with its own error
  | none =>
    unfold Focus.missing? at hpart
    split at hpart <;> cases hpart <;> rfl
  | some t =>
    have hkind : t.kind = .endMarker ∨ t.kind = .error := by
      simpa [isCutOff] using hcut
    -- no test of a step is met by the kind of `t`, down to the one for a cut
    have hopens : ∀ b, t.opens b = false := fun b =>
      Token.opens_eq_false (by obtain h | h := hkind <;> rw [h] <;> decide)
    have hcloses : ∀ b, t.closes b = false := fun b =>
      Token.closes_eq_false (by obtain h | h := hkind <;> rw [h] <;> decide)
    have hliteral : t.isLiteral "," = false := by
      obtain h | h := hkind <;> simp [Token.isLiteral, h]
    have hname : t.kind ≠ .identifier := by obtain h | h := hkind <;> rw [h] <;> decide
    have htype : t.kind ≠ .keyword .typeName := by obtain h | h := hkind <;> rw [h] <;> decide
    -- the eight places are gone through, and each fails with the error of its part
    unfold Focus.missing? at hpart
    split at hpart <;> cases hpart
    all_goals
      simp [onToken, onDeclaration, Reader.react, Reader.reactType, hopens, hcloses, hliteral,
        hname, htype, hcut, MissingPart.failure, Reader.spanOf]

end Machine

/-! ### Up to the cut -/

/-- The machine `m` has taken the tokens `before`, and waits for what they lack. -/
structure Located (before : List Token) (m : Machine Unit) : Prop extends Nested before m where
  missing : (∀ t ∈ before, t.kind ≠ .endMarker) → m.focus.missing? = missing? before

namespace Located

variable {before ts p : List Token} {m m' : Machine Unit} {t : Token}

theorem start : Located [] (Machine.start (Reader.ofSupply ())) where
  toNested := Nested.start
  missing _ := rfl

theorem takes (h : Located before m) (htakes : m.Takes t m') : Located (before ++ [t]) m' where
  toNested := h.toNested.takes htakes
  missing := by
    intro hmarker
    have hbefore := h.missing fun u hu => hmarker u (List.mem_append_left [t] hu)
    have ht : t.kind ≠ .endMarker := hmarker t (List.mem_append_right before List.mem_cons_self)
    rw [missing?_concat]
    cases htakes with
    -- what was missing before tells whether a name is that of the declaration
    | once move hback =>
      refine move.missing?_eq (hback.trans h.backlog.symm) ht fun _ => ?_
      rw [hbefore]
      exact missing?_eq_name_iff before
    -- of a token that is read twice, the second reading counts; a name is read once
    | again first hback second hreader =>
      refine second.missing?_eq (by rw [hreader]) ht fun hname => ?_
      refine absurd hname (first.kind_ne_identifier ?_)
      rw [hback, Reader.backlog_note, h.backlog]

theorem takesAll (h : Located before m) (htakes : m.TakesAll ts m') :
    Located (before ++ ts) m' :=
  htakes.invariant (fun _ _ _ _ => Located.takes) h

/-- Where nothing is missing, a parse stands between two statements. -/
theorem exists_statement (h : Located before m) (hmarker : ∀ t ∈ before, t.kind ≠ .endMarker)
    (hnone : missing? before = none) : ∃ done, m.focus = .statement done := by
  have hfocus := (h.missing hmarker).trans hnone
  have hrests := h.rests
  have hlast : isEndMarker before.getLast? = false := by
    rw [isEndMarker, Option.any_eq_false]
    intro t ht
    rw [beq_eq_false_iff_ne]
    exact hmarker t (List.mem_of_getLast? ht)
  cases hm : m.focus with
  | statement done => exact ⟨done, rfl⟩
  -- inside a declaration a part is missing, unless the parse waits for a token put back or for the
  -- brace behind an end marker
  | declaration done decl place =>
    rw [hm] at hfocus hrests
    cases place with
    | argumentType argument => cases hfocus
    | step s =>
      cases s with
      | keyword => exact hrests.elim
      | closeParams => exact hrests.elim
      | closeBody => exact absurd (hlast.symm.trans hrests) Bool.false_ne_true
      | name | openParams | parameter | delimiter | body => cases hfocus

end Located

/-- The beginning of a list of tokens that parses, without an end marker, is taken whole. -/
theorem exists_takesAll {p rest : List Token} {T : Scope} (hp : ∀ t ∈ p, t.kind ≠ .endMarker)
    (hok : Scope.ofTokens (p ++ rest) = .ok T) :
    ∃ m, p.foldl Progress.push Progress.start = .more m ∧
      (Machine.start (Reader.ofSupply ())).TakesAll (significant p) m := by
  obtain ⟨m, hfold, htakes⟩ | ⟨us, t, vs, m, outcome, r, rfl, -, -, hstop, hfold⟩ :=
    Progress.foldl_push_cases (m := Machine.start (Reader.ofSupply ())) rfl p
  · exact ⟨m, hfold, htakes⟩
  · -- a parse that is decided before its tokens end has met an end marker
    have hdone : (us ++ t :: (vs ++ rest)).foldl Progress.push Progress.start = .done outcome r :=
      hfold (vs ++ rest)
    rw [Scope.ofTokens_eq_conclude, List.append_assoc, List.cons_append, hdone] at hok
    obtain rfl : outcome = .ok T := hok
    obtain ⟨-, -, hend⟩ := Machine.accepts_of_onToken hstop
    exact absurd (hend t rfl) (hp t (List.mem_append_right us List.mem_cons_self))

/-! ### At the cut -/

namespace Progress

variable {m : Machine Unit} {t : Token} {outcome : Except SyntaxError Scope} {r : Reader Unit}

/-- A token that decides a parse makes whatever follows it irrelevant. -/
theorem conclude_of_token (ht : t.isIgnorable = false)
    (h : m.onToken .unit (m.reader.note t) (some t) = .done outcome r) (after : List Token) :
    ((t :: after).foldl push (.more m)).conclude = outcome := by
  -- what is over stays over, so the tokens behind are passed by
  have habsorb : m.absorb t = .done outcome r := by
    rw [Machine.absorb, h]
  rw [List.foldl_cons, push_more ht, habsorb, foldl_push_done]
  rfl

/-- The end of the tokens decides a parse too. -/
theorem conclude_of_none (hm : m.reader.backlog = [])
    (h : m.onToken .unit m.reader none = .done outcome r) : conclude (.more m) = outcome := by
  obtain ⟨q, hq⟩ := conclude_more hm
  rw [h, Progress.done.injEq] at hq
  exact hq.1.symm

end Progress

section AtCut

variable {p : List Token} {m : Machine Unit} (cut : Cut)

/-- The tokens `p`, after which the machine `m` stands, are cut off: what the machine makes of the
cut is the result. -/
theorem ofTokens_of_onToken (hfold : p.foldl Progress.push Progress.start = .more m)
    (hm : m.reader.backlog = []) {outcome : Except SyntaxError Scope} {r : Reader Unit}
    (h : m.onToken .unit (cut.reader m.reader) cut.token? = .done outcome r) :
    Scope.ofTokens (p ++ cut.tokens) = outcome := by
  rw [Scope.ofTokens_eq_conclude, List.foldl_append, hfold]
  cases cut with
  | exhausted => exact Progress.conclude_of_none hm h
  | marker t hkind after =>
    have hcut := (Cut.marker t hkind after).isCutOff_token?
    exact Progress.conclude_of_token (Cut.isIgnorable_of_isCutOff hcut) h after
  | failure t hkind after =>
    have hcut := (Cut.failure t hkind after).isCutOff_token?
    exact Progress.conclude_of_token (Cut.isIgnorable_of_isCutOff hcut) h after

/-- What is reported where a declaration is cut off. -/
theorem Located.ofTokens_of_missing (h : Located (significant p) m)
    (hfold : p.foldl Progress.push Progress.start = .more m)
    (hp : ∀ t ∈ significant p, t.kind ≠ .endMarker) {part : MissingPart}
    (hpart : missing? (significant p) = some part) :
    Scope.ofTokens (p ++ cut.tokens) =
      .error (part.failure cut.found (cut.span (significant p))) := by
  have hstop := Machine.onToken_of_missing (r := cut.reader m.reader)
    ((h.missing hp).trans hpart) cut.isCutOff_token?
  rw [cut.found_token?, cut.spanOf_token? h.furthest] at hstop
  exact ofTokens_of_onToken cut hfold h.backlog hstop

end AtCut

/-! ### A token that is noted in advance -/

namespace Reader

variable (r : Reader σ) (t u : Token)

theorem note_note_self : (r.note t).note t = r.note t := by
  simp only [note, Nat.max_assoc, Nat.max_self]

theorem note_note_comm : (r.note t).note u = (r.note u).note t := by
  simp only [note, Nat.max_right_comm]

end Reader

/-- The machine, if its reader had read the token `t` before. It knows of `t` where the token ends,
and nothing else. -/
def Machine.noted (t : Token) (m : Machine σ) : Machine σ :=
  ⟨m.reader.note t, m.enclosing, m.focus⟩

namespace Machine

variable {m m' : Machine Unit} {t u : Token}

/-- No move depends on where the tokens end. -/
theorem Move.noted {r : Reader σ} {enclosing : List OpenDecl} {focus : Focus} {m' : Machine σ}
    (h : Move r u enclosing focus m') (t : Token) :
    Move (r.note t) u enclosing focus (m'.noted t) := by
  cases h with
  | declare h => exact .declare h
  | endBody h => exact .endBody h
  | cutBody h => exact .cutBody h
  | keyword h => exact .keyword h
  | name h => exact .name h
  | openParams h => exact .openParams h
  | noParameter h => exact .noParameter h
  | argument h => exact .argument h
  | argumentType h => exact .argumentType h
  | comma h => exact .comma h
  | noComma h => exact .noComma h
  | closeParams h => exact .closeParams h
  | enterBody h room => exact .enterBody h room
  | closeBody h => exact .closeBody h

theorem Takes.noted (h : m.Takes u m') (t : Token) : (m.noted t).Takes u (m'.noted t) := by
  cases h with
  | once move hback =>
    have hmove := move.noted t
    rw [Reader.note_note_comm] at hmove
    exact .once hmove hback
  | again first hback second hreader =>
    have hfirst := first.noted t
    have hsecond := second.noted t
    rw [Reader.note_note_comm] at hfirst hsecond
    refine .again hfirst hback hsecond ?_
    show m'.reader.note t = _
    rw [hreader, Reader.note_note_comm]
    rfl

theorem TakesAll.noted {ts : List Token} (h : m.TakesAll ts m') (t : Token) :
    (m.noted t).TakesAll ts (m'.noted t) := by
  induction h with
  | nil => exact .nil _
  | cons first _ ih => exact .cons (first.noted t) ih

/-- What a machine takes, it absorbs. -/
theorem Takes.absorb_eq (h : m.Takes t m') : m.absorb t = .more m' := by
  unfold absorb
  cases h with
  | once move hback =>
    rw [move.onToken_eq]
    exact reread_of_nil hback
  | again first hback second hreader =>
    rw [first.onToken_eq]
    dsimp only
    unfold reread
    rw [hback]
    exact second.onToken_eq

theorem TakesAll.foldl_push {ts : List Token} (h : m.TakesAll ts m')
    (hts : ∀ t ∈ ts, t.isIgnorable = false) : ts.foldl Progress.push (.more m) = .more m' := by
  induction h with
  | nil => rfl
  | cons first _ ih =>
    obtain ⟨ht, hts⟩ := List.forall_mem_cons.1 hts
    rw [List.foldl_cons, Progress.push_more ht, first.absorb_eq]
    exact ih hts

end Machine

/-- To read tokens, with `t` noted before, is to take them one by one. -/
theorem Reader.readSource_note (ts : List Token) (t : Token) :
    ((Reader.ofSupply ts).note t).readSource =
      (ts.foldl Progress.push (.more ((Machine.start (Reader.ofSupply ())).noted t))).conclude := by
  have hsettled : (Progress.more ((Machine.start (Reader.ofSupply ())).noted t)).Settled := by
    intro m h
    cases h
    rfl
  have hrun := Progress.runWith_eq_conclude ts hsettled
  rw [TokenSupply.tokens_list] at hrun
  exact hrun

/-! ### The end of a body by an end marker -/

theorem isIgnorable_of_mem_significant {t : Token} {ts : List Token} (h : t ∈ significant ts) :
    t.isIgnorable = false := by
  simpa using (List.mem_filter.1 h).2

/-- What is reported behind the tokens `before`, where the closing brace of a body should come and
`token` does. -/
def unclosedBody (before : List Token) (token : Option Token) : SyntaxError :=
  .expectedClosing .brace (Token.found token)
    (token.elim (.point (furthestEnd before)) (·.span))

/-- **The result for tokens that are cut off.** Where the tokens `p` of a program are cut off, this
is what a parse makes of them. -/
inductive CutOff (p : List Token) : Cut → Except SyntaxError Scope → Prop
  /-- Inside a declaration, the part that comes next is missing. -/
  | missing {part : MissingPart} (cut : Cut) (hpart : missing? (significant p) = some part) :
      CutOff p cut (.error (part.failure cut.found (cut.span (significant p))))
  /-- Between two statements, the failure of a scan is passed on. -/
  | failed {t : Token} {hkind : t.kind = .error} {after : List Token}
      (hnone : missing? (significant p) = none) :
      CutOff p (.failure t hkind after) (.error (.lexical t.text t.span))
  /-- Outside every body, a source may end between two statements. -/
  | complete {cut : Cut} {T : Scope} (hnone : missing? (significant p) = none)
      (houtside : bodiesOpen (significant p) = 0) (hcut : ∀ t ∈ cut.token?, t.kind = .endMarker)
      (funcs : Funcs (significant p) T) : CutOff p cut (.ok T)
  /-- Inside a body, the tokens must not run out. -/
  | unexpectedEnd (hnone : missing? (significant p) = none)
      (hinside : 0 < bodiesOpen (significant p)) :
      CutOff p .exhausted (.error (.unexpectedEnd (.point (furthestEnd (significant p)))))
  /-- An end marker ends a body, whose closing brace is missing then. -/
  | unclosed {t : Token} {hkind : t.kind = .endMarker} {after : List Token}
      (hnone : missing? (significant p) = none) (hinside : 0 < bodiesOpen (significant p))
      (hnext : (significant after).head?.any (·.closes .brace) = false) :
      CutOff p (.marker t hkind after)
        (.error (unclosedBody (significant p ++ [t]) (significant after).head?))
  /-- If the brace comes nevertheless, the program is the one without the end marker. The outcome is
  that of a reader which knows no more of the marker than where it ends: the end of the input does
  not lie before that, and any other error is as it would be. -/
  | closed {t : Token} {hkind : t.kind = .endMarker} {after : List Token}
      {outcome : Except SyntaxError Scope} (hnone : missing? (significant p) = none)
      (hinside : 0 < bodiesOpen (significant p))
      (hnext : (significant after).head?.any (·.closes .brace) = true)
      (hwhole : outcome = ((Reader.ofSupply (p ++ after)).note t).readSource)
      (hsame : ∀ T, outcome = .ok T ↔ Scope.ofTokens (p ++ after) = .ok T) :
      CutOff p (.marker t hkind after) outcome

section Statement

variable {p : List Token} {m : Machine Unit} {done : Scope}

/-- Between two statements as many bodies are open as the machine keeps. -/
theorem Located.bodiesOpen_of_statement (h : Located (significant p) m)
    (hfocus : m.focus = .statement done) : bodiesOpen (significant p) = m.enclosing.length := by
  rw [h.bodiesOpen_eq, hfocus]
  rfl

theorem Located.bodiesOpen_pos (h : Located (significant p) m) (hfocus : m.focus = .statement done)
    (henclosing : m.enclosing ≠ []) : 0 < bodiesOpen (significant p) := by
  rw [h.bodiesOpen_of_statement hfocus]
  exact List.length_pos_iff.2 henclosing

/-- Outside every body, the declarations read so far are those of the tokens. -/
theorem Located.funcs_of_statement (h : Located (significant p) m)
    (hp : ∀ t ∈ significant p, t.kind ≠ .endMarker) (hfocus : m.focus = .statement done)
    (henclosing : m.enclosing = []) : Funcs (significant p) done := by
  have hawaits : Awaits m.enclosing m.focus [] done := by
    rw [henclosing, hfocus]
    exact Awaits.source_nil_iff.2 rfl
  have hprog := (h.demand [] done).2 hawaits
  rw [List.append_nil] at hprog
  -- the tokens are a program of their own, and without an end marker a complete one
  generalize significant p = ts at hp hprog
  cases hprog with
  | complete funcs => exact funcs
  | cut funcs hmarker =>
    exact absurd hmarker (hp _ (List.mem_append_right _ List.mem_cons_self))

/-- Outside every body, a source ends where its tokens run out or an end marker stands. -/
theorem Located.cutOff_of_outside (h : Located (significant p) m)
    (hfold : p.foldl Progress.push Progress.start = .more m)
    (hp : ∀ t ∈ significant p, t.kind ≠ .endMarker) (hnone : missing? (significant p) = none)
    (hfocus : m.focus = .statement done) (henclosing : m.enclosing = []) {cut : Cut}
    (hcut : ∀ t ∈ cut.token?, t.kind = .endMarker) :
    CutOff p cut (Scope.ofTokens (p ++ cut.tokens)) := by
  have haccepts : m.Accepts cut.token? done := ⟨henclosing, hfocus, hcut⟩
  have houtside : bodiesOpen (significant p) = 0 := by
    rw [h.bodiesOpen_of_statement hfocus, henclosing]
    rfl
  rw [ofTokens_of_onToken cut hfold h.backlog haccepts.onToken_eq]
  exact .complete hnone houtside hcut (h.funcs_of_statement hp hfocus henclosing)

/-- Inside a body, they must not run out. -/
theorem Located.ofTokens_of_inside (h : Located (significant p) m)
    (hfold : p.foldl Progress.push Progress.start = .more m) (hfocus : m.focus = .statement done)
    (henclosing : m.enclosing ≠ []) :
    Scope.ofTokens p = .error (.unexpectedEnd (.point (furthestEnd (significant p)))) := by
  -- as a body is open, the scope that ends is a body
  have hlevel : m.innerLevel .unit = .body := by
    rw [Machine.innerLevel, List.isEmpty_eq_false_iff.2 henclosing]
    rfl
  have hstop : m.onToken .unit m.reader none =
      m.abandon (.unexpectedEnd (.point m.reader.furthest)) m.reader := by
    simp only [Machine.onToken, hfocus, Machine.onStatement, hlevel]
    rfl
  rw [h.furthest] at hstop
  rw [Scope.ofTokens_eq_conclude, hfold]
  exact Progress.conclude_of_none h.backlog hstop

/-- The failure of a scan between two statements is the failure of the parse. -/
theorem Located.ofTokens_of_failure (h : Located (significant p) m)
    (hfold : p.foldl Progress.push Progress.start = .more m) (hfocus : m.focus = .statement done)
    {t : Token} (hkind : t.kind = .error) (after : List Token) :
    Scope.ofTokens (p ++ t :: after) = .error (.lexical t.text t.span) := by
  have hstop : m.onToken .unit (m.reader.note t) (some t) =
      m.abandon (.ofErrorToken t) (m.reader.note t) := by
    simp [Machine.onToken, hfocus, Machine.onStatement, Reader.reactStatement, hkind]
  exact ofTokens_of_onToken (.failure t hkind after) hfold h.backlog hstop

/-- **An end marker inside a body** closes it: the machine waits for the brace. -/
theorem Located.exists_closeBody (h : Located (significant p) m)
    (hfocus : m.focus = .statement done) (henclosing : m.enclosing ≠ []) {t : Token}
    (hkind : t.kind = .endMarker) :
    ∃ m', m.Takes t m' ∧ m.absorb t = .more m' ∧
      ∃ before decl, m'.focus = .declaration before decl (.step .closeBody) := by
  obtain ⟨reader, enclosing, focus⟩ := m
  have hfocus : focus = .statement done := hfocus
  obtain ⟨outer, enclosing, rfl⟩ := List.exists_cons_of_ne_nil henclosing
  subst hfocus
  have hback : reader.backlog = [] := h.backlog
  have hmove : Machine.Move (reader.note t) t (outer :: enclosing) (.statement done) _ :=
    .cutBody hkind
  refine ⟨_, .once hmove ?_, ?_, _, _, rfl⟩
  · exact hback
  · rw [Machine.absorb, hmove.onToken_eq]
    exact Machine.reread_of_nil hback

/-- A token behind the end marker that is no closing brace, or none. -/
theorem Located.ofTokens_of_unclosed (h : Located (significant p) m)
    (hfold : p.foldl Progress.push Progress.start = .more m) (hfocus : m.focus = .statement done)
    (henclosing : m.enclosing ≠ []) {t : Token} (hkind : t.kind = .endMarker) {after : List Token}
    (hnext : (significant after).head?.any (·.closes .brace) = false) :
    Scope.ofTokens (p ++ t :: after) =
      .error (unclosedBody (significant p ++ [t]) (significant after).head?) := by
  obtain ⟨m', htakes, habsorb, before, decl, hclose⟩ := h.exists_closeBody hfocus henclosing hkind
  have ht : t.isIgnorable = false :=
    Cut.isIgnorable_of_isCutOff (Cut.marker t hkind after).isCutOff_token?
  have hreached := h.toReached.takes htakes
  have hresult : Scope.ofTokens (p ++ t :: after) =
      ((significant after).foldl Progress.push (.more m')).conclude := by
    rw [Scope.ofTokens_eq_conclude, List.foldl_append, hfold, List.foldl_cons,
      Progress.push_more ht, habsorb]
    exact congrArg Progress.conclude (Progress.foldl_push_filter after _).symm
  rw [hresult]
  -- what the machine does at any token, or at none, but a closing brace
  have hstop : ∀ (r : Reader Unit) (token : Option Token),
      token.any (·.closes .brace) = false → m'.onToken .unit r token =
        m'.abandon (.expectedClosing .brace (Token.found token) (r.spanOf token)) r := by
    intro r token htoken
    simp [Machine.onToken, hclose, Machine.onDeclaration, Reader.react, htoken]
  cases hafter : significant after with
  | nil =>
    have hend := hstop m'.reader none rfl
    rw [show m'.reader.spanOf none = .point (furthestEnd (significant p ++ [t])) from
      congrArg Span.point hreached.furthest] at hend
    exact Progress.conclude_of_none hreached.backlog hend
  | cons u rest =>
    rw [hafter] at hnext
    have hu : u.isIgnorable = false :=
      isIgnorable_of_mem_significant (hafter ▸ List.mem_cons_self)
    exact Progress.conclude_of_token hu (hstop (m'.reader.note u) (some u) hnext) rest

/-- With an end marker in front or without, a closing brace ends the body and the declaration.
Behind it there is no difference but that the marker was noted. -/
theorem exists_takes_closeBody (hback : m.reader.backlog = []) (hfocus : m.focus = .statement done)
    (henclosing : m.enclosing ≠ []) {t u : Token} (hkind : t.kind = .endMarker)
    (hbrace : u.closes .brace = true) :
    ∃ m₁ m₂, m.Takes t m₁ ∧ m₁.Takes u m₂ ∧ (m.noted t).Takes u m₂ := by
  obtain ⟨⟨supply, backlog, furthest, openBodies⟩, enclosing, focus⟩ := m
  obtain ⟨outer, enclosing, rfl⟩ := List.exists_cons_of_ne_nil henclosing
  obtain rfl : focus = .statement done := hfocus
  obtain rfl : backlog = [] := hback
  refine ⟨_, _, .once (.cutBody hkind) rfl, .once (.closeBody hbrace) rfl, ?_⟩
  -- without the marker the brace is read twice, and so noted twice
  let r : Reader Unit := ⟨supply, [], max furthest t.span.stop, openBodies - 1⟩
  have htwice : (r.note u).note u = r.note u := r.note_note_self u
  refine .again (.endBody hbrace) rfl ?_ htwice.symm
  show Machine.Move ((r.note u).note u) u _ _ _
  rw [htwice]
  exact .closeBody hbrace

/-- **The closing brace behind the end marker.** The program is read as the one without the marker
is, if the marker was noted. -/
theorem Located.ofTokens_eq_of_closed (h : Located (significant p) m)
    (htakes : (Machine.start (Reader.ofSupply ())).TakesAll (significant p) m)
    (hfocus : m.focus = .statement done) (henclosing : m.enclosing ≠ []) {t : Token}
    (hkind : t.kind = .endMarker) {after : List Token}
    (hnext : (significant after).head?.any (·.closes .brace) = true) :
    Scope.ofTokens (p ++ t :: after) = ((Reader.ofSupply (p ++ after)).note t).readSource := by
  have ht : t.isIgnorable = false :=
    Cut.isIgnorable_of_isCutOff (Cut.marker t hkind after).isCutOff_token?
  obtain ⟨u, hhead, hbrace⟩ := (Option.any_eq_true _ _).1 hnext
  obtain ⟨rest, hafter⟩ := List.head?_eq_some_iff.1 hhead
  have hu : u.isIgnorable = false := isIgnorable_of_mem_significant (List.mem_of_mem_head? hhead)
  obtain ⟨m₁, m₂, hmarker, hclose, hnoted⟩ :=
    exists_takes_closeBody h.backlog hfocus henclosing hkind hbrace
  -- with the marker: it closes the body, and the brace is read once
  have hwith : (significant (p ++ t :: after)).foldl Progress.push Progress.start =
      rest.foldl Progress.push (.more m₂) := by
    rw [significant_append, significant_cons ht, hafter, List.foldl_append, Progress.start,
      htakes.foldl_push fun _ => isIgnorable_of_mem_significant, List.foldl_cons, List.foldl_cons,
      Progress.push_more ht, hmarker.absorb_eq, Progress.push_more hu, hclose.absorb_eq]
  -- without it: the brace closes the body and is read again
  have hwithout : (significant (p ++ after)).foldl Progress.push
      (.more ((Machine.start (Reader.ofSupply ())).noted t)) =
      rest.foldl Progress.push (.more m₂) := by
    rw [significant_append, hafter, List.foldl_append,
      (htakes.noted t).foldl_push fun _ => isIgnorable_of_mem_significant, List.foldl_cons,
      Progress.push_more hu, hnoted.absorb_eq]
  rw [Scope.ofTokens_eq_conclude, Reader.readSource_note, ← Progress.foldl_push_filter,
    ← Progress.foldl_push_filter (p ++ after)]
  exact congrArg Progress.conclude (hwith.trans hwithout.symm)

/-- In particular, one of the two parses if the other does, to the same declarations. -/
theorem Located.ofTokens_of_closed (h : Located (significant p) m)
    (hfocus : m.focus = .statement done) (henclosing : m.enclosing ≠ []) {t : Token}
    (hkind : t.kind = .endMarker) {after : List Token}
    (hnext : (significant after).head?.any (·.closes .brace) = true) (T : Scope) :
    Scope.ofTokens (p ++ t :: after) = .ok T ↔ Scope.ofTokens (p ++ after) = .ok T := by
  have ht : t.isIgnorable = false :=
    Cut.isIgnorable_of_isCutOff (Cut.marker t hkind after).isCutOff_token?
  -- to parse is to meet the demand that the tokens `p` leave
  rw [Scope.ofTokens_eq_ok_iff_awaits, Scope.ofTokens_eq_ok_iff_awaits, Awaits.start_iff,
    Awaits.start_iff, significant_append, significant_append, significant_cons ht, h.demand,
    h.demand]
  -- with and without the end marker, what is left is the rest of the declaration
  obtain ⟨outer, enclosing, henclosing⟩ := List.exists_cons_of_ne_nil henclosing
  obtain ⟨u, hu, hbrace⟩ := (Option.any_eq_true _ _).1 hnext
  obtain ⟨rest, hafter⟩ := List.head?_eq_some_iff.1 hu
  have hukind := Token.kind_of_closes hbrace
  have hclose : t.closes .brace = false := Token.closes_eq_false (by simp [hkind])
  rw [henclosing, hfocus, hafter, Awaits.body_cons_iff, Awaits.body_cons_iff]
  simp [hkind, hukind, hbrace, hclose]

end Statement

/-- **A cut gives the error of its place.** Let the tokens `p` begin a program, without an end
marker, and let them be cut off. Then the parse fails at the cut with the part of the program that
is missing there, or it ends as the source does. -/
theorem Scope.ofTokens_cutOff (p rest : List Token) (T : Scope)
    (hp : ∀ t ∈ p, t.kind ≠ .endMarker) (hok : Scope.ofTokens (p ++ rest) = .ok T) (cut : Cut) :
    CutOff p cut (Scope.ofTokens (p ++ cut.tokens)) := by
  obtain ⟨m, hfold, htakes⟩ := exists_takesAll hp hok
  have hlocated : Located (significant p) m := Located.start.takesAll htakes
  have hmarker : ∀ t ∈ significant p, t.kind ≠ .endMarker := fun t ht =>
    hp t (List.mem_of_mem_filter ht)
  cases hmissing : missing? (significant p) with
  | some part =>
    rw [hlocated.ofTokens_of_missing cut hfold hmarker hmissing]
    exact .missing cut hmissing
  | none =>
    obtain ⟨done, hfocus⟩ := hlocated.exists_statement hmarker hmissing
    cases cut with
    | failure t hkind after =>
      rw [Cut.tokens, hlocated.ofTokens_of_failure hfold hfocus hkind]
      exact .failed hmissing
    | exhausted =>
      by_cases henclosing : m.enclosing = []
      · have hcut : ∀ t ∈ Cut.exhausted.token?, t.kind = .endMarker := nofun
        exact hlocated.cutOff_of_outside hfold hmarker hmissing hfocus henclosing hcut
      · rw [Cut.tokens, List.append_nil, hlocated.ofTokens_of_inside hfold hfocus henclosing]
        exact .unexpectedEnd hmissing (hlocated.bodiesOpen_pos hfocus henclosing)
    | marker t hkind after =>
      by_cases henclosing : m.enclosing = []
      · have hcut : ∀ u ∈ (Cut.marker t hkind after).token?, u.kind = .endMarker := by
          rintro u ⟨⟩
          exact hkind
        exact hlocated.cutOff_of_outside hfold hmarker hmissing hfocus henclosing hcut
      · have hinside := hlocated.bodiesOpen_pos hfocus henclosing
        -- the marker has closed the body, and the brace is still to come
        cases hnext : (significant after).head?.any (·.closes .brace) with
        | false =>
          rw [Cut.tokens, hlocated.ofTokens_of_unclosed hfold hfocus henclosing hkind hnext]
          exact .unclosed hmissing hinside hnext
        | true =>
          exact .closed hmissing hinside hnext
            (hlocated.ofTokens_eq_of_closed htakes hfocus henclosing hkind hnext)
            (hlocated.ofTokens_of_closed hfocus henclosing hkind hnext)

/-- A failed scan behind the name of an argument, two levels deep and in front of other tokens. -/
theorem Scope.ofTokens_cutOff_in_arguments :
    Scope.ofTokens
        [⟨.keyword .function, "func", ⟨0, 4⟩⟩, ⟨.identifier, "f", ⟨5, 6⟩⟩,
          ⟨.bracketOpen, "(", ⟨6, 7⟩⟩, ⟨.bracketClose, ")", ⟨7, 8⟩⟩,
          ⟨.bracketOpen, "\x7b", ⟨8, 9⟩⟩, ⟨.keyword .function, "func", ⟨10, 14⟩⟩,
          ⟨.identifier, "g", ⟨15, 16⟩⟩, ⟨.bracketOpen, "(", ⟨16, 17⟩⟩, ⟨.identifier, "a", ⟨17, 18⟩⟩,
          ⟨.error, "unrecognized character U+0040 '@'", ⟨18, 19⟩⟩, ⟨.number, "7", ⟨20, 21⟩⟩] =
      .error (.argumentsCutOff "lexical error: unrecognized character U+0040 '@'" ⟨18, 19⟩) := by
  have hcut := Scope.ofTokens_cutOff
    [⟨.keyword .function, "func", ⟨0, 4⟩⟩, ⟨.identifier, "f", ⟨5, 6⟩⟩,
      ⟨.bracketOpen, "(", ⟨6, 7⟩⟩, ⟨.bracketClose, ")", ⟨7, 8⟩⟩,
      ⟨.bracketOpen, "\x7b", ⟨8, 9⟩⟩, ⟨.keyword .function, "func", ⟨10, 14⟩⟩,
      ⟨.identifier, "g", ⟨15, 16⟩⟩, ⟨.bracketOpen, "(", ⟨16, 17⟩⟩, ⟨.identifier, "a", ⟨17, 18⟩⟩]
    [⟨.keyword .typeName, "int16", ⟨19, 24⟩⟩, ⟨.bracketClose, ")", ⟨24, 25⟩⟩,
      ⟨.bracketOpen, "\x7b", ⟨25, 26⟩⟩, ⟨.bracketClose, "\x7d", ⟨26, 27⟩⟩,
      ⟨.bracketClose, "\x7d", ⟨27, 28⟩⟩]
    [⟨.keyword .function, "f", [], [⟨.keyword .function, "g", [⟨"a", "int16"⟩], []⟩]⟩]
    (by decide) (by decide +kernel)
    (.failure ⟨.error, "unrecognized character U+0040 '@'", ⟨18, 19⟩⟩ rfl
      [⟨.number, "7", ⟨20, 21⟩⟩])
  generalize hresult : Scope.ofTokens _ = result at hcut
  cases hcut with
  | missing cut hpart =>
    cases hpart
    exact hresult
  | failed hnone => cases hnone
  | complete hnone => cases hnone

end DeclFront
