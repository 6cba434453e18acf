import DeclFront.Proofs.Parse.Concatenation
import DeclFront.Proofs.Parse.Coverage
import DeclFront.Proofs.Scan.Balance
import Mathlib.Logic.Relation

/-!
# Brackets counted twice

A scan counts the brackets of each pair that are open, and so does a parse, in its own way: an open
body is a declaration that waits for its closing brace, and an open argument list is a place inside
a declaration. `Nested` says that the parse counts right. As the brackets of a scan are in balance,
a parse that has taken all tokens stands outside every body and every argument list, unless the scan
was cut off.

So some failures are known to a parse and never reported for a source (`SyntaxError.isForestalled`):
the end of the tokens inside a body, a bracket that is not closed. The exception is a body that an
end marker ends. Its brace is then missed where the source ends (`Scope.nesting_agrees`).

The other failures that do not occur are those of the two steps at which a token is read a second
time. It was tested at its first reading, and fits (`Focus.Rests`).
-/

namespace DeclFront

open Grammar

variable {σ : Type}

/-! ### Counting brackets -/

/-- Where a scan ends without a failure and without an end marker, the significant tokens open as
many brackets of a pair as they close. -/
theorem countP_significant_lex {source : String}
    (hclean : ∀ t ∈ lex source, t.kind.isFinal = false) (b : Bracket) :
    (significant (lex source)).countP (·.opens b) =
      (significant (lex source)).countP (·.closes b) := by
  have htally : tallyAll b 0 (significant (lex source)) = some 0 := by
    rw [significant, tallyAll_filter b fun t n ht => ?_]
    · exact tallyAll_lex hclean b
    · -- neither white space nor a comment is a bracket
      rw [Bool.not_eq_false', Token.isIgnorable, Bool.or_eq_true, beq_iff_eq] at ht
      refine Token.tally_of_kind ?_ b n
      obtain ht | ht := ht
      · exact TokenKind.isBracket_of_isTrivia ht
      · rw [ht]
        rfl
  have hcount := countP_of_tallyAll htally
  rwa [Nat.zero_add, Nat.zero_add] at hcount

/-! ### Where a parse rests -/

/-- Whether there is a token and it is an end marker. -/
def isEndMarker (token : Option Token) : Bool :=
  token.any (·.kind == .endMarker)

/-- The places where a parse stands between two tokens, of which the first is `last`. A keyword and
a closing parenthesis are always read a second time at once; a closing brace too, so that a body
waits for its brace only after an end marker. -/
def Focus.Rests (last : Option Token) : Focus → Prop
  | .declaration _ _ (.step .keyword) | .declaration _ _ (.step .closeParams) => False
  | .declaration _ _ (.step .closeBody) => isEndMarker last = true
  | _ => isEndMarker last = false

namespace Machine

variable {m m' : Machine Unit} {t : Token}

/-- A move that does not put its token back leads to a place of rest. -/
theorem Move.rests {r : Reader σ} {enclosing : List OpenDecl} {focus : Focus} {m' : Machine σ}
    (h : Move r t enclosing focus m') (hback : m'.reader.backlog = r.backlog) :
    m'.focus.Rests (some t) := by
  cases h with
  | declare | endBody | noParameter | noComma =>
    exact absurd (congrArg List.length hback) (by simp)
  | cutBody h | keyword h | name h | argument h | argumentType h =>
    simp [Focus.Rests, isEndMarker, h]
  | openParams h | enterBody h => simp [Focus.Rests, isEndMarker, Token.kind_of_opens h]
  | comma h => simp [Focus.Rests, isEndMarker, Token.kind_of_isLiteral h]
  | closeParams h | closeBody h => simp [Focus.Rests, isEndMarker, Token.kind_of_closes h]

/-- Taking a token leads to a place of rest. -/
theorem Takes.rests (h : m.Takes t m') (hm : m.reader.backlog = []) : m'.focus.Rests (some t) := by
  cases h with
  | once move hback => exact move.rests (hback.trans hm.symm)
  | again first hback second hreader => exact second.rests (by rw [hreader])

end Machine

/-! ### The invariant -/

/-- The machine `m` has taken the tokens `before` from the start of a parse, and counts brackets as
they do. -/
structure Nested (before : List Token) (m : Machine Unit) : Prop extends Reached before m where
  /-- The unmatched parentheses of `before` are the open argument lists. -/
  parens : before.countP (·.closes .paren) + m.focus.parens = before.countP (·.opens .paren)
  rests : m.focus.Rests before.getLast?
  /-- The failure of a scan is not taken. -/
  clean : ∀ t ∈ before, t.kind ≠ .error

namespace Nested

variable {before ts : List Token} {m m' : Machine Unit} {t : Token} {source : String}

/-- A parse begins at rest. -/
theorem start : Nested [] (Machine.start (Reader.ofSupply ())) where
  toReached := Reached.start
  parens := rfl
  rests := rfl
  clean t ht := by cases ht

/-- **Taking a token keeps the two counts equal**, and leads from rest to rest. -/
theorem takes (h : Nested before m) (htakes : m.Takes t m') : Nested (before ++ [t]) m' where
  toReached := h.toReached.takes htakes
  parens := by
    have hstep := htakes.brackets h.backlog .paren
    simp only [openBrackets] at hstep
    have hbefore := h.parens
    rw [List.countP_append, List.countP_append]
    omega
  rests := by
    rw [List.getLast?_concat]
    exact htakes.rests h.backlog
  clean := by
    intro u hu
    obtain hu | hu := List.mem_append.1 hu
    · exact h.clean u hu
    · rw [List.mem_singleton.1 hu]
      exact htakes.kind_ne_error

/-- So does taking many. -/
theorem takesAll (h : Nested before m) (htakes : m.TakesAll ts m') : Nested (before ++ ts) m' :=
  htakes.invariant (fun _ _ _ _ => Nested.takes) h

/-- **The two counts agree.** A parse that has taken all tokens of a source without an end marker
stands outside every body and every argument list. -/
theorem outside (h : Nested (significant (lex source)) m)
    (hmarker : ∀ t ∈ lex source, t.kind ≠ .endMarker) :
    m.enclosing = [] ∧ m.focus.unclosed = 0 ∧ m.focus.parens = 0 := by
  -- the scan was clean: a failure is not taken, and there is no end marker
  have hclean : ∀ t ∈ lex source, t.kind.isFinal = false := by
    intro t ht
    refine TokenKind.isFinal_eq_false (fun hkind => ?_) (hmarker t ht)
    refine h.clean t (List.mem_filter.2 ⟨ht, ?_⟩) hkind
    rw [Token.isIgnorable, hkind]
    rfl
  have hbodies := h.bodies
  have hparens := h.parens
  -- the scan has found as many opening as closing brackets, so nothing is left open
  rw [countP_significant_lex hclean] at hbodies hparens
  have hlength : m.enclosing.length = 0 := by omega
  exact ⟨List.length_eq_zero_iff.1 hlength, by omega, by omega⟩

end Nested

/-! ### The failures that remain -/

/-- Whether the failure is one that other tests forestall: a declaration does not start with its
keyword, a bracket is not closed, or the tokens end inside a body. -/
def SyntaxError.isForestalled : SyntaxError → Bool
  | expectedFunction .. | expectedClosing .. | unexpectedEnd .. => true
  | _ => false

namespace Reader

variable {r q : Reader σ} {e : SyntaxError}

/-- A token that begins no statement is no such failure. -/
theorem isForestalled_of_reactStatement {level : ScopeLevel} {t : Token}
    (h : r.reactStatement level (some t) = .fail e q) : e.isForestalled = false := by
  simp only [reactStatement] at h
  split_ifs at h
  all_goals simp at h
  all_goals obtain ⟨rfl, -⟩ := h
  all_goals rfl

/-- At the steps where a parse rests and no body waits for its brace, there is no such failure. -/
theorem isForestalled_of_react {decl : FunctionDecl} {s : DeclStep} {token : Option Token}
    (hs : s ∉ [.keyword, .closeParams, .closeBody]) (h : r.react decl token s = .fail e q) :
    e.isForestalled = false := by
  cases s with
  | keyword | closeParams | closeBody => exact absurd hs (by decide)
  | name | openParams | parameter | delimiter | body =>
    simp only [react] at h
    repeat' split at h
    all_goals simp at h
    all_goals obtain ⟨rfl, -⟩ := h
    all_goals rfl

/-- At the type of an argument there is none either. -/
theorem isForestalled_of_reactType {decl : FunctionDecl} {argument : String} {token : Option Token}
    (h : r.reactType decl argument token = .error e) : e.isForestalled = false := by
  unfold reactType at h
  repeat' split at h
  all_goals simp at h
  all_goals subst h
  all_goals rfl

end Reader

namespace Machine

variable {m : Machine σ} {r r' : Reader σ} {t : Token} {last : Option Token} {e : SyntaxError}

/-- A token at which a parse fails is no such failure, if no end marker stands before it. -/
theorem isForestalled_of_onToken (hrests : m.focus.Rests last) (hlast : isEndMarker last = false)
    (h : m.onToken .unit r (some t) = .done (.error e) r') : e.isForestalled = false := by
  unfold onToken at h
  split at h
  · unfold onStatement at h
    split at h
    · simp at h
    · split at h <;> simp at h
    · next error q hq =>
      simp only [abandon, Progress.done.injEq, Except.error.injEq] at h
      exact h.1 ▸ Reader.isForestalled_of_reactStatement hq
  · next done decl place hfocus =>
    rw [hfocus] at hrests
    cases place with
    | argumentType argument =>
      simp only [onDeclaration] at h
      split at h
      · simp at h
      · next error hq =>
        simp only [abandon, Progress.done.injEq, Except.error.injEq] at h
        exact h.1 ▸ Reader.isForestalled_of_reactType hq
    | step s =>
      -- the three steps are no places of rest, unless an end marker stands before
      have hs : s ∉ [.keyword, .closeParams, .closeBody] := by
        intro hs
        simp only [List.mem_cons, List.not_mem_nil, or_false] at hs
        obtain rfl | rfl | rfl := hs
        · exact hrests
        · exact hrests
        · exact absurd (hlast.symm.trans hrests) Bool.false_ne_true
      simp only [onDeclaration] at h
      split at h
      · simp at h
      · simp at h
      · simp at h
      · simp at h
      · next error q hq =>
        simp only [abandon, Progress.done.injEq, Except.error.injEq] at h
        exact h.1 ▸ Reader.isForestalled_of_react hs hq

/-- Where the tokens end outside every body and every argument list, a name or an opening bracket is
missing. -/
theorem eq_of_onToken_none (hrests : m.focus.Rests last) (henclosing : m.enclosing = [])
    (hunclosed : m.focus.unclosed = 0) (hparens : m.focus.parens = 0)
    (h : m.onToken .unit r none = .done (.error e) r') :
    (∃ found span, e = .expectedName found span) ∨
      ∃ b found span, e = .expectedOpening b found span := by
  obtain ⟨reader, enclosing, focus⟩ := m
  cases focus with
  | statement done =>
    obtain rfl : enclosing = [] := henclosing
    cases h
  | declaration done decl place =>
    cases place with
    | argumentType argument => cases hparens
    | step s =>
      cases s with
      -- what is open, or at no place of rest, is excluded step by step
      | keyword => exact hrests.elim
      | closeParams => exact hrests.elim
      | parameter => cases hparens
      | delimiter => cases hparens
      | closeBody => cases hunclosed
      | name =>
        cases h
        exact .inl ⟨_, _, rfl⟩
      | openParams =>
        cases h
        exact .inr ⟨_, _, _, rfl⟩
      | body =>
        cases h
        exact .inr ⟨_, _, _, rfl⟩

/-- Where the tokens end in an end marker, a closing brace is missing. -/
theorem eq_of_onToken_none_of_isEndMarker (hrests : m.focus.Rests last)
    (hlast : isEndMarker last = true) (h : m.onToken .unit r none = .done (.error e) r') :
    e = .expectedClosing .brace "end of input" (.point r.furthest) := by
  obtain ⟨reader, enclosing, focus⟩ := m
  have hrests : focus.Rests last := hrests
  -- the only place of rest behind an end marker
  obtain ⟨done, decl, rfl⟩ : ∃ done decl, focus = .declaration done decl (.step .closeBody) := by
    unfold Focus.Rests at hrests
    split at hrests
    · exact hrests.elim
    · exact hrests.elim
    · exact ⟨_, _, rfl⟩
    · exact absurd (hlast.symm.trans hrests) Bool.noConfusion
  cases h
  rfl

end Machine

/-! ### Steps of a parse -/

namespace Machine

variable [TokenSupply σ] {supply supply' : σ} {m : Machine Unit} {n : Machine σ} {t : Token}

/-- The parse gets from the first state to the second by steps that lead on. -/
def Reaches : Machine σ → Machine σ → Prop :=
  Relation.ReflTransGen fun m m' => m.step .unit = .more m'

/-- What follows a state is the same, however the parse got there. -/
theorem Reaches.run_eq {m n : Machine σ} (h : m.Reaches n) : m.run .unit = n.run .unit := by
  induction h using Relation.ReflTransGen.head_induction_on with
  | refl => rfl
  | head hstep _ ih => rw [run_of_step_eq_more hstep, ih]

/-- A parse that has no token left to read has taken the first of them. -/
theorem Reaches.exists_takes (hm : m.reader.backlog = [])
    (hs : TokenSupply.next? supply = some (t, supply')) (ht : t.isIgnorable = false)
    (h : (m.withSupply supply).Reaches n) (hnone : n.reader.next.1 = none) :
    ∃ m', m.Takes t m' ∧ (m'.withSupply supply').Reaches n := by
  obtain rfl | ⟨n₁, hstep, hrest⟩ := h.cases_head
  · rw [withSupply_reader, Reader.next_of_supply hm hs, if_neg (by simp [ht])] at hnone
    cases hnone
  · rw [step_of_token hm hs ht] at hstep
    obtain ⟨m', habs, htakes⟩ | ⟨outcome, r, -, hstop⟩ := absorb_cases hm t
    · refine ⟨m', htakes, ?_⟩
      unfold absorb at habs
      cases hfirst : m.onToken .unit (m.reader.note t) (some t) with
      | done outcome r =>
        rw [hfirst] at hstep
        cases hstep
      | more m₁ =>
        rw [hfirst] at hstep habs
        obtain rfl : m₁.withSupply supply' = n₁ := Progress.more.inj hstep
        obtain hb | ⟨hb, -, -⟩ := (move_of_onToken hfirst).backlog_eq
        · have hread : m₁.reread = .more m₁ := reread_of_nil (hb.trans hm)
          obtain rfl : m₁ = m' := Progress.more.inj (hread.symm.trans habs)
          exact hrest
        · -- the token waits to be read again, so this is not the end
          have hb₁ : m₁.reader.backlog = [t] := hb.trans (by rw [Reader.note, hm])
          obtain rfl | ⟨n₂, hstep', hrest'⟩ := hrest.cases_head
          · rw [withSupply_reader, Reader.next_of_backlog hb₁ ht] at hnone
            cases hnone
          · rw [step_of_backlog hb₁ ht, show m₁.reread = .more m' from habs] at hstep'
            obtain rfl : m'.withSupply supply' = n₂ := Progress.more.inj hstep'
            exact hrest'
    · rw [hstop] at hstep
      cases hstep

/-- A parse that has no token left to read has taken them all. -/
theorem Reaches.exists_takesAll (hm : m.reader.backlog = [])
    (h : (m.withSupply supply).Reaches n) (hnone : n.reader.next.1 = none) :
    ∃ m', m.TakesAll ((TokenSupply.tokens supply).filter (!·.isIgnorable)) m' ∧
      n.enclosing = m'.enclosing ∧ n.focus = m'.focus := by
  -- by induction on the supply, as long as no token waits to be read again
  fun_induction TokenSupply.tokens supply generalizing m n with
  | case1 supply hs =>
    obtain rfl | ⟨m₁, hstep, -⟩ := h.cases_head
    · exact ⟨m, .nil m, rfl, rfl⟩
    · rw [step, withSupply_reader, Reader.next_of_dry hm hs] at hstep
      exact absurd hstep (onToken_none_ne_more _ _ _ _)
  | case2 supply t supply' hs _ ih =>
    cases ht : t.isIgnorable with
    -- what the grammar ignores is skipped inside a step, so the two supplies are at the same state
    | true =>
      obtain ⟨hnext, hsame⟩ := step_of_ignorable hm hs ht
      rw [List.filter_cons_of_neg (by simp [ht])]
      obtain rfl | ⟨m₁, hstep, hrest⟩ := h.cases_head
      · rw [hnext] at hnone
        have hrefl : (m.withSupply supply').Reaches (m.withSupply supply') := .refl
        obtain ⟨m', htakes, hsame⟩ := ih hm hrefl hnone
        exact ⟨m', htakes, hsame⟩
      · exact ih hm (.head (hsame.symm.trans hstep) hrest) hnone
    | false =>
      rw [List.filter_cons_of_pos (by simp [ht])]
      obtain ⟨m₁, hfirst, hrest⟩ := Reaches.exists_takes hm hs ht h hnone
      obtain ⟨m', htakes, hsame⟩ := ih hfirst.backlog_eq_nil hrest hnone
      exact ⟨m', .cons hfirst htakes, hsame⟩

end Machine

/-! ### The failures of a source -/

/-- In a parse of the source, the machine `m` has no token left to read, and fails with `e`. -/
structure RunsOut (source : String) (m : Machine (Emitter Scanner)) (e : SyntaxError) : Prop where
  reached : (Machine.start (Reader.ofSupply (Scanner.ofSource source ⟨false⟩).run)).Reaches m
  exhausted : m.reader.next.1 = none
  fails : ∃ r, m.step .unit = .done (.error e) r

section Source

variable {source : String} {e : SyntaxError}

/-- An end marker is the last token that a parse takes, and nothing ends further on. -/
theorem Nested.of_endMarker {m : Machine Unit} {marker : Token}
    (h : Nested (significant (lex source)) m) (hmem : marker ∈ lex source)
    (hkind : marker.kind = .endMarker) :
    (∃ ts, lex source = ts ++ [marker]) ∧
      isEndMarker (significant (lex source)).getLast? = true ∧
      m.reader.furthest = source.utf8ByteSize := by
  obtain ⟨us, vs, hlex⟩ := List.append_of_mem hmem
  obtain ⟨rfl, rfl⟩ := eq_of_lex_eq_append_endMarker hlex hkind
  have hlast : significant (lex source) =
      significant us ++ [⟨.endMarker, "", .point source.utf8ByteSize⟩] := by
    rw [hlex, significant_append]
    rfl
  have hends : furthestEnd (significant us) ≤ source.utf8ByteSize := by
    refine furthestEnd_le fun t ht => ?_
    have htoken : t ∈ lex source := hlex ▸ List.mem_append_left _ (List.mem_of_mem_filter ht)
    exact (Token.sits_of_mem_lexWith ⟨false⟩ source t htoken).stop_boundary.le
  refine ⟨⟨us, hlex⟩, ?_, ?_⟩
  · rw [hlast, List.getLast?_concat]
    rfl
  · rw [h.furthest, hlast, furthestEnd_concat]
    exact Nat.max_eq_right hends

/-- A failure of a source is not forestalled, or a closing brace is missing behind an end marker. -/
theorem Scope.isForestalled_or_eq (h : Scope.ofSource source = .error e) :
    e.isForestalled = false ∨
      (∃ ts marker, lex source = ts ++ [marker] ∧ marker.kind = .endMarker) ∧
        e = .expectedClosing .brace "end of input" (.point source.utf8ByteSize) := by
  rw [Scope.ofSource_eq_ofTokens, Scope.ofTokens_eq_conclude, Progress.start] at h
  obtain ⟨m, hfold, htakes⟩ | ⟨us, t, vs, m, outcome, r, hlex, ht, htakes, hstop, hfold⟩ :=
    Progress.foldl_push_cases (m := .start (.ofSupply ())) rfl (lex source)
  · -- the tokens ran out
    have hnested : Nested (significant (lex source)) m := Nested.start.takesAll htakes
    obtain ⟨r, hr⟩ := Progress.conclude_more hnested.backlog
    rw [← hfold, h] at hr
    -- behind an end marker a brace is missing; without one nothing is open
    by_cases hmarker : ∃ t ∈ lex source, t.kind = .endMarker
    · obtain ⟨marker, hmem, hkind⟩ := hmarker
      obtain ⟨⟨ts, hlex⟩, hlast, hfurthest⟩ := hnested.of_endMarker hmem hkind
      refine .inr ⟨⟨ts, marker, hlex, hkind⟩, ?_⟩
      rw [← hfurthest]
      exact Machine.eq_of_onToken_none_of_isEndMarker hnested.rests hlast hr
    · obtain ⟨henclosing, hunclosed, hparens⟩ :=
        hnested.outside fun t ht hkind => hmarker ⟨t, ht, hkind⟩
      obtain ⟨found, span, rfl⟩ | ⟨b, found, span, rfl⟩ :=
        Machine.eq_of_onToken_none hnested.rests henclosing hunclosed hparens hr
      · exact .inl rfl
      · exact .inl rfl
  · -- the parse was decided at `t`, and no end marker can stand before it
    have hnested : Nested (significant us) m := Nested.start.takesAll htakes
    have hlast : isEndMarker (significant us).getLast? = false := by
      rw [Bool.eq_false_iff]
      intro hmarked
      obtain ⟨marker, hmarker, hkind⟩ := (Option.any_eq_true _ _).1 hmarked
      obtain ⟨ws, hws⟩ := List.getLast?_eq_some_iff.1 hmarker
      have hsplit : significant (lex source) = ws ++ marker :: t :: significant vs := by
        rw [hlex, significant_append, significant_cons ht, hws, List.append_assoc]
        rfl
      cases (eq_of_significant_lex_eq_append hsplit (beq_iff_eq.1 hkind)).1
    rw [hlex, hfold vs] at h
    obtain rfl : outcome = .error e := h
    exact .inl (Machine.isForestalled_of_onToken hnested.rests hlast hstop)

end Source

/-- **A scan and a parse agree on nesting.** No failure of a source says that the tokens end inside
a body, that a declaration does not start with its keyword, or that a parenthesis is not closed; a
brace is missed only where a body ends in an end marker, and then at the end of the source. Where
there is no end marker and the tokens run out, a name or an opening bracket is missing, outside
every body and every argument list. -/
theorem Scope.nesting_agrees (source : String) :
    (∀ e, Scope.ofSource source = .error e →
      (∀ span, e ≠ .unexpectedEnd span) ∧
      (∀ found span, e ≠ .expectedFunction found span) ∧
      (∀ found span, e ≠ .expectedClosing .paren found span) ∧
      ∀ found span, e = .expectedClosing .brace found span →
        (∃ ts marker, lex source = ts ++ [marker] ∧ marker.kind = .endMarker) ∧
          found = "end of input" ∧ span = .point source.utf8ByteSize) ∧
    ((∀ t ∈ lex source, t.kind ≠ .endMarker) → ∀ m e, RunsOut source m e →
      Scope.ofSource source = .error e ∧
      ((∃ found span, e = .expectedName found span) ∨
        ∃ b found span, e = .expectedOpening b found span) ∧
      m.enclosing = [] ∧ m.focus.unclosed = 0 ∧ m.focus.parens = 0) := by
  refine ⟨fun e h => ?_, fun hmarker n e h => ?_⟩
  · obtain hother | ⟨hlex, rfl⟩ := Scope.isForestalled_or_eq h
    · refine ⟨?_, ?_, ?_, ?_⟩
      · rintro span rfl
        cases hother
      · rintro found span rfl
        cases hother
      · rintro found span rfl
        cases hother
      · rintro found span rfl
        cases hother
    -- the brace behind an end marker is the one exception
    · refine ⟨nofun, nofun, nofun, fun found span heq => ?_⟩
      cases heq
      exact ⟨hlex, rfl, rfl⟩
  · obtain ⟨r, hr⟩ := h.fails
    have hstart : Scope.ofSource source = .error e := by
      have hrun := h.reached.run_eq
      rw [Machine.run_of_step_eq_done hr] at hrun
      exact congrArg Prod.fst hrun
    -- the parse stands where a machine stands that has taken all tokens
    obtain ⟨m, htakes, henclosing, hfocus⟩ :=
      Machine.Reaches.exists_takesAll (m := .start (.ofSupply ())) rfl h.reached h.exhausted
    rw [TokenSupply.tokens_emitter] at htakes
    have hnested : Nested (significant (lex source)) m := Nested.start.takesAll htakes
    have houtside := hnested.outside hmarker
    have hrests := hnested.rests
    rw [← henclosing, ← hfocus] at houtside
    rw [← hfocus] at hrests
    rw [Machine.step, h.exhausted] at hr
    exact ⟨hstart, Machine.eq_of_onToken_none hrests houtside.1 houtside.2.1 houtside.2.2 hr,
      houtside⟩

/-- A body that ends in a comment that breaks off, and a declaration without a name. -/
theorem Scope.nesting_agrees_of_cut_off :
    (Scope.ofSource "func f()\x7b//" =
        .error (.expectedClosing .brace "end of input" (.point 11)) ∧
      ∃ ts marker, lex "func f()\x7b//" = ts ++ [marker] ∧ marker.kind = .endMarker) ∧
    ∃ m, RunsOut "func" m (.expectedName "end of input" (.point 4)) ∧
      Scope.ofSource "func" = .error (.expectedName "end of input" (.point 4)) ∧
      m.enclosing = [] ∧ m.focus.unclosed = 0 ∧ m.focus.parens = 0 := by
  have hcut : Scope.ofSource "func f()\x7b//" =
      .error (.expectedClosing .brace "end of input" (.point 11)) := by
    decide +kernel
  have hlex : lex "func" = [⟨.keyword .function, "func", ⟨0, 4⟩⟩] := by decide +kernel
  have hmarker : ∀ t ∈ lex "func", t.kind ≠ .endMarker := by
    rw [hlex]
    decide
  obtain ⟨m, hm⟩ : ∃ m, RunsOut "func" m (.expectedName "end of input" (.point 4)) := by
    -- the supply gives out the keyword and is dry
    obtain ⟨supply, hfirst, hdry⟩ : ∃ supply,
        TokenSupply.next? (Scanner.ofSource "func" ⟨false⟩).run =
          some (⟨.keyword .function, "func", ⟨0, 4⟩⟩, supply) ∧
        TokenSupply.next? supply = none := by
      have htokens : (Scanner.ofSource "func" ⟨false⟩).run.tokens = _ := hlex
      cases hrun : (Scanner.ofSource "func" ⟨false⟩).run with
      | halt s =>
        rw [hrun] at htokens
        cases htokens
      | offer t resume =>
        rw [hrun, Emitter.tokens_offer] at htokens
        obtain ⟨rfl, hrest⟩ := List.cons.inj htokens
        refine ⟨resume true, rfl, ?_⟩
        cases hresume : resume true with
        | halt s => rfl
        | offer t' resume' =>
          rw [hresume] at hrest
          cases hrest
    -- the keyword is read, put back and read again
    let named : Machine Unit := ⟨⟨(), [], 4, 0⟩, [], .declaration [] (.named "") (.step .name)⟩
    have hreached : (Machine.start (Reader.ofSupply (Scanner.ofSource "func" ⟨false⟩).run)).Reaches
        (named.withSupply supply) :=
      .head (Machine.step_of_token (m := .start (.ofSupply ())) rfl hfirst rfl)
        (.single (Machine.step_of_backlog rfl rfl))
    have hnext : (named.withSupply supply).reader.next = (none, named.reader.withSupply supply) :=
      Reader.next_of_dry rfl hdry
    refine ⟨named.withSupply supply, hreached, by rw [hnext], ?_⟩
    rw [Machine.step, hnext]
    exact ⟨_, rfl⟩
  obtain ⟨hparse, -, houtside⟩ := (Scope.nesting_agrees "func").2 hmarker m _ hm
  refine ⟨⟨hcut, ?_⟩, m, hm, hparse, houtside⟩
  exact (((Scope.nesting_agrees "func f()\x7b//").1 _ hcut).2.2.2 _ _ rfl).1

end DeclFront
