import DeclFront.Proofs.Parse.Acceptance

/-!
# The first failure of a parse

A parse that fails does so at the earliest point at which its tokens cannot become a program any
more, and it says so at that point (`Scope.first_failure`). There are two ways to fail:

* at a token. What stands before it is the beginning of a sentence of the grammar; with it, it is
  none, or the token opens a body while 128 are open. No token behind it plays any part.
* where the tokens end. All of them are the beginning of a sentence, but no sentence.

The invariant is `Reached`: a machine that has taken the tokens `before` demands exactly what
completes `before` to a sentence, has seen nothing past their furthest end, and has as many bodies
open as `before` has braces unmatched.
-/

namespace DeclFront

open Grammar

variable {σ : Type}

/-! ### What a list of tokens says about the place after it -/

/-- The furthest end of a list of tokens, zero for none. -/
def furthestEnd (ts : List Token) : Nat :=
  ts.foldl (fun n t => max n t.span.stop) 0

/-- How many bodies are open after a list of tokens: its opening braces less its closing ones. -/
def bodiesOpen (ts : List Token) : Nat :=
  ts.countP (·.opens .brace) - ts.countP (·.closes .brace)

/-- The token `t` after `before` is the first brace that opens a body while `limit` are open. -/
def OpensBeyond (limit : Nat) (before : List Token) (t : Token) : Prop :=
  t.opens .brace = true ∧ bodiesOpen before = limit ∧
    ∀ ts, ts <+: before → bodiesOpen ts ≤ limit

theorem furthestEnd_concat (ts : List Token) (t : Token) :
    furthestEnd (ts ++ [t]) = max (furthestEnd ts) t.span.stop := by
  rw [furthestEnd, List.foldl_append]
  rfl

/-! ### Brackets -/

/-- How many bodies of the declaration in focus wait for their closing brace. -/
def Focus.unclosed : Focus → Nat
  | .declaration _ _ (.step .closeBody) => 1
  | _ => 0

/-- How many argument lists are open in the declaration in focus. -/
def Focus.parens : Focus → Nat
  | .declaration _ _ (.step .parameter) | .declaration _ _ (.argumentType _)
  | .declaration _ _ (.step .delimiter) | .declaration _ _ (.step .closeParams) => 1
  | _ => 0

/-- How many brackets of a pair are open in a parse. A body is counted by its place among the
enclosing ones, and between its last statement and its brace by the focus. -/
def openBrackets (enclosing : List OpenDecl) (focus : Focus) : Bracket → Nat
  | .brace => enclosing.length + focus.unclosed
  | .paren => focus.parens

namespace Token

variable {t : Token} {b : Bracket}

theorem opens_eq_false (h : t.kind ≠ .bracketOpen) : t.opens b = false := by
  simp [opens, h]

theorem closes_eq_false (h : t.kind ≠ .bracketClose) : t.closes b = false := by
  simp [closes, h]

end Token

namespace Machine

variable {m m' : Machine Unit} {t : Token}

/-- The end of the input was noted when the token was read, and no move changes it. -/
theorem Move.furthest_eq {r : Reader σ} {enclosing : List OpenDecl} {focus : Focus}
    {m' : Machine σ} (h : Move r t enclosing focus m') : m'.reader.furthest = r.furthest := by
  cases h <;> rfl

/-- A move that puts its token back keeps the count of open brackets; any other counts the bracket
that its token may be. -/
theorem Move.brackets {r : Reader σ} {enclosing : List OpenDecl} {focus : Focus} {m' : Machine σ}
    (h : Move r t enclosing focus m') (b : Bracket) :
    (m'.reader.backlog = r.backlog ∧
        openBrackets m'.enclosing m'.focus b + [t].countP (·.closes b) =
          openBrackets enclosing focus b + [t].countP (·.opens b)) ∨
      (m'.reader.backlog = t :: r.backlog ∧
        openBrackets m'.enclosing m'.focus b = openBrackets enclosing focus b) := by
  -- leaving a body for its brace, or a list of arguments for its parenthesis, changes nothing
  cases h with
  | declare | endBody | noParameter | noComma =>
    refine .inr ⟨rfl, ?_⟩
    cases b <;> rfl
  | cutBody h | keyword h | name h | argument h | argumentType h =>
    have ho : t.opens b = false := Token.opens_eq_false (by simp [h])
    have hc : t.closes b = false := Token.closes_eq_false (by simp [h])
    refine .inl ⟨rfl, ?_⟩
    cases b <;> simp [openBrackets, Focus.unclosed, Focus.parens, ho, hc]
  -- a comma is known by its text, and no bracket is a literal
  | comma h =>
    have hk := Token.kind_of_isLiteral h
    have ho : t.opens b = false := Token.opens_eq_false (by simp [hk])
    have hc : t.closes b = false := Token.closes_eq_false (by simp [hk])
    refine .inl ⟨rfl, ?_⟩
    cases b <;> simp [openBrackets, Focus.unclosed, Focus.parens, ho, hc]
  | openParams h | enterBody h =>
    have ho := Token.opens_eq h b
    have hc := Token.closes_eq_false_of_opens h b
    refine .inl ⟨rfl, ?_⟩
    cases b <;> simp [openBrackets, Focus.unclosed, Focus.parens, ho, hc]
  | closeParams h | closeBody h =>
    have ho := Token.opens_eq_false_of_closes h b
    have hc := Token.closes_eq h b
    refine .inl ⟨rfl, ?_⟩
    cases b <;> simp [openBrackets, Focus.unclosed, Focus.parens, ho, hc]

/-- Taking a token counts the bracket that it may be. -/
theorem Takes.brackets (h : m.Takes t m') (hm : m.reader.backlog = []) (b : Bracket) :
    openBrackets m'.enclosing m'.focus b + [t].countP (·.closes b) =
      openBrackets m.enclosing m.focus b + [t].countP (·.opens b) := by
  cases h with
  | once move hback =>
    obtain ⟨-, hcount⟩ | ⟨hback', -⟩ := move.brackets b
    · exact hcount
    · -- the move puts its token back, so it cannot be the only one
      rw [hback] at hback'
      cases hback'
  | again first hback second hreader =>
    obtain ⟨hback', -⟩ | ⟨-, hfirst⟩ := first.brackets b
    · rw [hback, Reader.backlog_note, hm] at hback'
      cases hback'
    · -- the bracket is counted at the second reading alone
      obtain ⟨-, hsecond⟩ | ⟨hback', -⟩ := second.brackets b
      · rw [hsecond, hfirst]
      · rw [hreader] at hback'
        cases hback'

/-- Taking a token notes where it ends. -/
theorem Takes.furthest_eq (h : m.Takes t m') :
    m'.reader.furthest = max m.reader.furthest t.span.stop := by
  cases h with
  | once move hback => rw [move.furthest_eq]; rfl
  | again first hback second hreader =>
    have hfirst := first.furthest_eq
    rw [second.furthest_eq]
    simp only [Reader.note] at hfirst ⊢
    rw [hfirst, Nat.max_assoc, Nat.max_self]

end Machine

/-! ### The invariant -/

/-- The machine `m` has taken the tokens `before` from the start of a parse. -/
structure Reached (before : List Token) (m : Machine Unit) : Prop where
  /-- No token waits to be read again. -/
  backlog : m.reader.backlog = []
  within : Within m.enclosing m.focus m.reader.openBodies
  /-- What completes `before` to a program is what the machine demands. -/
  demand : ∀ us T, Prog (before ++ us) T ↔ Awaits m.enclosing m.focus us T
  furthest : m.reader.furthest = furthestEnd before
  /-- The unmatched braces of `before` are the open bodies. -/
  bodies : before.countP (·.closes .brace) + (m.enclosing.length + m.focus.unclosed) =
    before.countP (·.opens .brace)
  /-- There were never more of them than may be open at once. -/
  shallow : ∀ ts, ts <+: before → bodiesOpen ts ≤ maxOpenBodies

namespace Reached

variable {before ts : List Token} {m m' : Machine Unit} {t : Token}

theorem start : Reached [] (Machine.start (Reader.ofSupply ())) where
  backlog := rfl
  within := within_start
  demand us T := by rw [List.nil_append]; exact Awaits.start_iff.symm
  furthest := rfl
  bodies := rfl
  shallow ts hts := by rw [List.prefix_nil.1 hts]; exact Nat.zero_le _

theorem bodiesOpen_eq (h : Reached before m) :
    bodiesOpen before = m.enclosing.length + m.focus.unclosed := by
  rw [bodiesOpen, ← h.bodies, Nat.add_sub_cancel_left]

/-- A body that waits for its brace is counted in the depth of the focus. -/
theorem unclosed_le_depth (focus : Focus) : focus.unclosed ≤ focus.depth := by
  unfold Focus.unclosed
  split
  · next done d =>
    have hpos := d.nesting_pos
    simp only [Focus.depth]
    omega
  · exact Nat.zero_le _

/-- Taking a further token keeps the invariant. -/
theorem takes (h : Reached before m) (htakes : m.Takes t m') : Reached (before ++ [t]) m' := by
  have hwithin := htakes.within h.within
  -- the count of braces follows from what the token does to open brackets
  have hbodies : (before ++ [t]).countP (·.closes .brace) +
      (m'.enclosing.length + m'.focus.unclosed) = (before ++ [t]).countP (·.opens .brace) := by
    have hstep := htakes.brackets h.backlog .brace
    simp only [openBrackets] at hstep
    have hbefore := h.bodies
    rw [List.countP_append, List.countP_append]
    omega
  have hopen : bodiesOpen (before ++ [t]) = m'.enclosing.length + m'.focus.unclosed := by
    rw [bodiesOpen, ← hbodies, Nat.add_sub_cancel_left]
  refine ⟨htakes.backlog_eq_nil, hwithin, ?_, ?_, hbodies, ?_⟩
  · intro us T
    rw [List.append_assoc, h.demand, List.singleton_append, htakes.awaits_iff h.backlog]
  · rw [htakes.furthest_eq, h.furthest, furthestEnd_concat]
  · intro ts hts
    obtain rfl | hts := List.prefix_concat_iff.1 hts
    · -- the open bodies never outnumber those that the declarations read so far need
      have hfocus := hwithin.focus
      have hdepth := unclosed_le_depth m'.focus
      omega
    · exact h.shallow ts hts

/-- What was taken is the beginning of a sentence. -/
theorem viable (h : Reached before m) : Viable before := by
  -- whatever is open, something completes it
  obtain ⟨us, T, hawaits⟩ := exists_awaits m.enclosing m.focus
  exact ⟨us, T, (h.demand us T).2 hawaits⟩

/-- Taking further tokens keeps the invariant. -/
theorem takesAll (h : Reached before m) (htakes : m.TakesAll ts m') : Reached (before ++ ts) m' :=
  htakes.invariant (fun _ _ _ _ => Reached.takes) h

/-- Taking a list of tokens leads to a machine that has taken the significant ones, or the parse is
decided at one of them. -/
theorem foldl_push (h : Reached before m) (ts : List Token) :
    (∃ m', ts.foldl Progress.push (.more m) = .more m' ∧
        Reached (before ++ significant ts) m') ∨
      ∃ us t vs m' outcome r, ts = us ++ t :: vs ∧ t.isIgnorable = false ∧
        Reached (before ++ significant us) m' ∧
        m'.onToken .unit (m'.reader.note t) (some t) = .done outcome r ∧
        ∀ ws, (us ++ t :: ws).foldl Progress.push (.more m) = .done outcome r := by
  obtain ⟨m', hfold, htakes⟩ | ⟨us, t, vs, m', outcome, r, hts, ht, htakes, hstop, hfold⟩ :=
    Progress.foldl_push_cases h.backlog ts
  · exact .inl ⟨m', hfold, h.takesAll htakes⟩
  · exact .inr ⟨us, t, vs, m', outcome, r, hts, ht, h.takesAll htakes, hstop, hfold⟩

/-- A token at which the parse fails cannot follow what was taken, or it opens a body too many. -/
theorem overflow_or_not_viable (h : Reached before m) {e : SyntaxError} {r : Reader Unit}
    (hstop : m.onToken .unit (m.reader.note t) (some t) = .done (.error e) r) :
    (e = .nestedTooDeep maxOpenBodies t.span ∧ OpensBeyond maxOpenBodies before t) ∨
      ¬ Viable (before ++ [t]) := by
  -- the limit is not part of the grammar, so it is dealt with first
  by_cases hover : m.Overflows (m.reader.note t) t
  · refine .inl ⟨?_, ?_⟩
    · rw [hover.onToken_eq] at hstop
      cases hstop
      rfl
    · obtain ⟨⟨done, d, hfocus⟩, hopen, hfull⟩ := hover
      have hfull : maxOpenBodies ≤ m.reader.openBodies := hfull
      -- the reader counts the bodies that are open, and these are the unmatched braces
      have hcount := h.bodiesOpen_eq
      have hle := h.shallow before (List.prefix_refl before)
      rw [hfocus, ← h.within.count, show Focus.unclosed (.declaration done d (.step .body)) = 0
        from rfl] at hcount
      exact ⟨hopen, by omega, h.shallow⟩
  · -- a continuation that begins with `t` would be demanded, and the machine would have gone on
    refine .inr ?_
    rintro ⟨us, T, hprog⟩
    rw [List.append_assoc, h.demand] at hprog
    obtain ⟨m', hmove⟩ | haccept | hover' :=
      Machine.exists_move_of_awaits (r := m.reader.note t) hprog
    · rw [hmove.onToken_eq] at hstop
      cases hstop
    · rw [haccept.onToken_eq] at hstop
      cases hstop
    · exact hover hover'

end Reached

/-- The error `e` reports the first point at which the tokens `ts` cannot become a program. -/
inductive FirstFailure (ts : List Token) (e : SyntaxError) : Prop
  /-- It lies at the token `t`. The tokens before `t` begin a sentence, and with `t` they begin
  none, unless `t` is the first brace to open a body while 128 are open. Whatever stands behind
  `t`, the result is the same. -/
  | atToken {before after : List Token} {t : Token} (split : ts = before ++ t :: after)
      (matters : t.isIgnorable = false) (span : e.span = t.span)
      (viable : Viable (significant before))
      (refused : (e = .nestedTooDeep 128 t.span ∧ OpensBeyond 128 (significant before) t) ∨
        ¬ Viable (significant before ++ [t]))
      (final : ∀ us, Scope.ofTokens (before ++ t :: us) = .error e)
  /-- It lies where the tokens end. They begin a sentence and are none. -/
  | atEnd (viable : Viable (significant ts)) (incomplete : ¬ Sentence (significant ts))
      (span : e.span = Span.point (furthestEnd (significant ts)))

/-- **The first failure.** A parse that fails reports the first point at which its tokens cannot
become a program, and nothing beyond it matters. -/
theorem Scope.first_failure (ts : List Token) (e : SyntaxError)
    (h : Scope.ofTokens ts = .error e) : FirstFailure ts e := by
  rw [Scope.ofTokens_eq_conclude] at h
  obtain ⟨m, hfold, hreached⟩ | ⟨us, t, vs, m, outcome, r, rfl, ht, hreached, hstop, hfold⟩ :=
    Reached.start.foldl_push ts
  · -- the tokens ran out
    rw [List.nil_append] at hreached
    rw [Progress.start, hfold] at h
    refine .atEnd hreached.viable ?_ ?_
    · rintro ⟨T, hprog⟩
      rw [← List.append_nil (significant ts), hreached.demand,
        ← Progress.conclude_more_eq_ok_iff hreached.backlog, h] at hprog
      cases hprog
    · -- the failure points at the end of what was read
      obtain ⟨r, hr⟩ := Progress.conclude_more hreached.backlog
      rw [h] at hr
      rw [Machine.span_of_onToken_eq_error hr, Reader.spanOf, hreached.furthest]
  · -- the parse was decided at `t`
    rw [List.nil_append] at hreached
    rw [Progress.start, hfold vs] at h
    obtain rfl : outcome = .error e := h
    refine .atToken rfl ht (Machine.span_of_onToken_eq_error hstop) hreached.viable
      (hreached.overflow_or_not_viable hstop) fun ws => ?_
    rw [Scope.ofTokens_eq_conclude, Progress.start, hfold ws]
    rfl

/-- A number in place of an argument, behind a comment and before a failed scan. -/
theorem Scope.first_failure_number :
    Scope.ofTokens
        [⟨.keyword .function, "func", ⟨0, 4⟩⟩, ⟨.identifier, "f", ⟨5, 6⟩⟩,
          ⟨.bracketOpen, "(", ⟨6, 7⟩⟩, ⟨.comment, "/**/", ⟨7, 11⟩⟩, ⟨.number, "7", ⟨11, 12⟩⟩,
          ⟨.error, "unclosed bracket", ⟨12, 12⟩⟩] =
        .error (.expectedArgument "number `7`" ⟨11, 12⟩) ∧
      FirstFailure
        [⟨.keyword .function, "func", ⟨0, 4⟩⟩, ⟨.identifier, "f", ⟨5, 6⟩⟩,
          ⟨.bracketOpen, "(", ⟨6, 7⟩⟩, ⟨.comment, "/**/", ⟨7, 11⟩⟩, ⟨.number, "7", ⟨11, 12⟩⟩,
          ⟨.error, "unclosed bracket", ⟨12, 12⟩⟩]
        (.expectedArgument "number `7`" ⟨11, 12⟩) := by
  refine ⟨?_, Scope.first_failure _ _ ?_⟩ <;> (rw [Scope.ofTokens_eq_conclude]; rfl)

end DeclFront
