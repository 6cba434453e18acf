import DeclFront.Proofs.Parse.Concatenation
import DeclFront.Proofs.Parse.Coverage
import DeclFront.Proofs.Scan.Course

/-!
# Where a failure points

A parse fails at a token or where its tokens end. In the first case the failure has the span of the
token (`Machine.span_of_onToken_eq_error`). In the second it points at the furthest end of the
tokens that were read, which a reader keeps as a running maximum because its tokens may come from
anywhere. The tokens of a source lie one after another (`pairwise_span_lexWith`), so that the
furthest end is the end of the last of them (`furthestEnd_of_ordered`), and it lies in the source
because that token does.

Spans come from several computations of the scan: the piece that was collected, one rune past a
word, a point at the position. That all of them lie between runes is known of every token
(`Token.sits_of_mem_lexWith`), so here they need not be told apart.
-/

namespace DeclFront

open Grammar

/-! ### The furthest end -/

/-- In tokens that lie one after another, the last one ends furthest. -/
theorem furthestEnd_of_ordered {ts : List Token} {last : Token}
    (hordered : (ts ++ [last]).Pairwise fun t u => t.span.stop ≤ u.span.start)
    (hlast : last.span.start ≤ last.span.stop) : furthestEnd (ts ++ [last]) = last.span.stop := by
  -- the others end before the last one starts
  have hbefore : furthestEnd ts ≤ last.span.stop := by
    refine furthestEnd_le ?_
    intro t ht
    have hstart := (List.pairwise_append.1 hordered).2.2 t ht last (List.mem_singleton_self last)
    exact hstart.trans hlast
  rw [furthestEnd_concat, Nat.max_eq_right hbefore]

/-! ### The span of a failure -/

/-- A failure points at a token, or at the furthest end of the significant tokens, and then there
are some, since the empty list is a program. -/
theorem Scope.span_of_ofTokens_eq_error {ts : List Token} {e : SyntaxError}
    (h : Scope.ofTokens ts = .error e) :
    (∃ t ∈ ts, e.span = t.span) ∨
      significant ts ≠ [] ∧ e.span = .point (furthestEnd (significant ts)) := by
  rw [Scope.ofTokens_eq_conclude] at h
  obtain ⟨m, hfold, hreached⟩ | ⟨us, t, vs, m, outcome, r, rfl, -, hreached, hstop, hfold⟩ :=
    Reached.start.foldl_push ts
  · -- the tokens ran out
    rw [List.nil_append] at hreached
    rw [Progress.start, hfold] at h
    refine .inr ⟨?_, ?_⟩
    · intro hnone
      -- without significant tokens the parse would have succeeded
      have hempty : Prog (significant ts ++ []) [] := by
        rw [hnone]
        exact .complete .nil
      rw [hreached.demand, ← Progress.conclude_more_eq_ok_iff hreached.backlog, h] at hempty
      cases hempty
    · obtain ⟨r, hr⟩ := Progress.conclude_more hreached.backlog
      rw [h] at hr
      rw [Machine.span_of_onToken_eq_error hr, Reader.spanOf, hreached.furthest]
  · -- the parse was decided at `t`
    rw [Progress.start, hfold vs] at h
    obtain rfl : outcome = .error e := h
    exact .inl ⟨t, List.mem_append_right us List.mem_cons_self,
      Machine.span_of_onToken_eq_error hstop⟩

section Source

variable {source : String} {e : SyntaxError}

/-- A failure of a source points at one of its tokens, or at the end of the last one that is no
comment. -/
theorem Scope.span_of_ofSource_eq_error (h : Scope.ofSource source = .error e) :
    (∃ t ∈ lex source, e.span = t.span) ∨
      ∃ ts last, (lex source).filter (·.kind ≠ .comment) = ts ++ [last] ∧ last ∈ lex source ∧
        e.span = .point last.span.stop := by
  rw [Scope.ofSource_eq_ofTokens] at h
  obtain htoken | ⟨hsome, hspan⟩ := Scope.span_of_ofTokens_eq_error h
  · exact .inl htoken
  · obtain hnone | ⟨ts, last, hts⟩ := List.eq_nil_or_concat (significant (lex source))
    · exact absurd hnone hsome
    rw [List.concat_eq_append] at hts
    have hmem : last ∈ lex source := by
      have hsignificant : last ∈ significant (lex source) := by
        rw [hts]
        exact List.mem_concat_self
      exact List.mem_of_mem_filter hsignificant
    -- a selection of tokens that lie in order lies in order
    have hordered : (significant (lex source)).Pairwise fun t u => t.span.stop ≤ u.span.start :=
      (pairwise_span_lexWith ⟨false⟩ source).filter _
    have hlast := (Token.sits_of_mem_lexWith ⟨false⟩ source last hmem).start_le
    rw [hts] at hordered hspan
    refine .inr ⟨ts, last, ?_, hmem, ?_⟩
    · rw [filter_lex_eq_significant, hts]
    · rw [hspan, furthestEnd_of_ordered hordered hlast]

end Source

/-- **Every failure points into its source.** Its span lies between runes of the source and is that
of a token, or the empty span at the end of the last token that is no comment. Whatever a scan
reports, the spans of its tokens lie one after another, those of a failure and of an end marker
included. -/
theorem Scope.diagnosis_in_source (source : String) :
    (∀ e, Scope.ofSource source = .error e →
      (e.span.start ≤ e.span.stop ∧ e.span.stop ≤ source.utf8ByteSize) ∧
      (Boundary source e.span.start ∧ Boundary source e.span.stop) ∧
      ((∃ t ∈ lex source, e.span = t.span) ∨
        ∃ ts last, (lex source).filter (·.kind ≠ .comment) = ts ++ [last] ∧
          e.span = .point last.span.stop)) ∧
    ∀ options, (∀ t ∈ lexWith options source, t.span.start ≤ t.span.stop) ∧
      (lexWith options source).Pairwise fun t u => t.span.stop ≤ u.span.start := by
  refine ⟨?_, ?_⟩
  · intro e h
    obtain ⟨t, ht, hspan⟩ | ⟨ts, last, hfilter, hlast, hspan⟩ :=
      Scope.span_of_ofSource_eq_error h
    · -- at a token, which lies between runes as a whole
      have hsits := Token.sits_of_mem_lexWith ⟨false⟩ source t ht
      rw [hspan]
      exact ⟨⟨hsits.start_le, hsits.stop_boundary.le⟩, ⟨hsits.start_boundary, hsits.stop_boundary⟩,
        .inl ⟨t, ht, rfl⟩⟩
    · -- or at the end of one
      have hstop := (Token.sits_of_mem_lexWith ⟨false⟩ source last hlast).stop_boundary
      rw [hspan]
      exact ⟨⟨Nat.le_refl _, hstop.le⟩, ⟨hstop, hstop⟩, .inr ⟨ts, last, hfilter, rfl⟩⟩
  · intro options
    refine ⟨?_, pairwise_span_lexWith options source⟩
    intro t ht
    exact (Token.sits_of_mem_lexWith options source t ht).start_le

/-- A name of two bytes with nothing but a comment behind it, and a rune that begins no token. -/
theorem Scope.diagnosis_in_source_of_two_sorts :
    (∃ e, Scope.ofSource "func é /* */" = .error e ∧ e.span = .point 7 ∧
      Boundary "func é /* */" e.span.stop) ∧
    ∃ e, Scope.ofSource "func é½" = .error e ∧ e.span = ⟨7, 9⟩ ∧
      Boundary "func é½" e.span.start ∧ Boundary "func é½" e.span.stop := by
  have hend : Scope.ofSource "func é /* */" =
      .error (.expectedOpening .paren "end of input" (.point 7)) := by
    decide +kernel
  have hrune : Scope.ofSource "func é½" =
      .error (.expectedName "lexical error: unexpected character U+00BD '½'" ⟨7, 9⟩) := by
    decide +kernel
  obtain ⟨-, ⟨-, hboundary⟩, -⟩ := (Scope.diagnosis_in_source _).1 _ hend
  obtain ⟨-, hboundaries, -⟩ := (Scope.diagnosis_in_source _).1 _ hrune
  exact ⟨⟨_, hend, rfl, hboundary⟩, _, hrune, rfl, hboundaries⟩

end DeclFront
