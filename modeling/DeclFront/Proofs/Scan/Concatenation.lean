import DeclFront.Proofs.Scan.Context

/-!
# Scanning two sources as one

A scan carries nothing over a boundary between tokens: no piece, no bracket, nothing to take back.
So a source that ends without a failure and without an end marker can be followed by white space and
any other source, and the tokens of the second one are those it has by itself, moved along
(`lex_append_white`). And where a rune has ended a scan, what comes after that rune is never read
(`lex_append_of_raised`).

Both follow from what a scan makes of all runes ahead, wherever they stand (`Scanner.Scans`), which
is put together from its pieces.
-/

namespace DeclFront

namespace Scanner

/-! ### Scans in context -/

/-- What a scan between tokens makes of all the runes ahead, wherever they stand. -/
inductive Scans (depths : Bracket → Nat) (ahead : List Char) (ts : List Token) : Prop
  /-- It passes over them with no bracket left open, if what comes after them is inert. -/
  | clean (plain : ∀ t ∈ ts, t.kind.isFinal = false)
      (run : ∀ {s : Scanner} {before more : List Char}, s.Stands before (ahead ++ more) depths →
        Inert more → ∃ s' : Scanner, s'.Stands (before ++ ahead) more (fun _ => 0) ∧
          s.run.tokens = shiftAll (byteLength before) ts ++ s'.run.tokens)
  /-- It fails at one of them, whatever comes after them. -/
  | refused (front : List Token) (e : Token) (tokens : ts = front ++ [e]) (error : e.kind = .error)
      (some_ahead : ahead ≠ [])
      (run : ∀ {s : Scanner} {before more : List Char}, s.Stands before (ahead ++ more) depths →
        s.run.tokens = shiftAll (byteLength before) ts)
  /-- It does not come to an end among them; that is certain only if nothing comes after them. -/
  | cutOff (front : List Token) (last : Token) (tokens : ts = front ++ [last])
      (unfinished : Unfinished ahead last)
      (run : ∀ {s : Scanner} {before : List Char}, s.Stands before ahead depths →
        s.run.tokens = shiftAll (byteLength before) ts)

variable {depths depths' : Bracket → Nat} {ahead before taken rest : List Char} {ts us : List Token}

/-- The last token of a scan that is not finished moves along with the runes. -/
theorem Unfinished.append {last : Token} (h : Unfinished rest last) (taken : List Char) :
    Unfinished (taken ++ rest) (last.shift (byteLength taken)) := by
  cases h with
  | marker offset => exact .marker (offset + byteLength taken)
  | bracket offset => exact .bracket (offset + byteLength taken)
  -- the runes of the constant are the same, and its place moves along
  | constant front constant split noLine =>
    have hsplit : taken ++ rest = taken ++ front ++ constant := by
      rw [split, List.append_assoc]
    have hmoved := Unfinished.constant (taken ++ front) constant hsplit noLine
    have hspan : Span.shift ⟨byteLength front, byteLength front + byteLength constant⟩
        (byteLength taken) = ⟨byteLength (taken ++ front),
          byteLength (taken ++ front) + byteLength constant⟩ := by
      simp only [Span.shift, byteLength_append, Span.mk.injEq]
      omega
    rw [Token.shift, hspan]
    exact hmoved

/-- A piece in front of runes of which it is known what a scan makes of them. -/
theorem PassesOver.scans (h : PassesOver depths ahead ts taken rest depths')
    (hrest : Scans depths' rest us) :
    Scans depths ahead (ts ++ shiftAll (byteLength taken) us) := by
  -- the tokens behind the piece are moved by what stands before it and by the piece
  have hshift : ∀ before : List Char, shiftAll (byteLength (before ++ taken)) us =
      shiftAll (byteLength before) (shiftAll (byteLength taken) us) := by
    intro before
    rw [shiftAll_shiftAll, byteLength_append, Nat.add_comm]
  cases hrest with
  -- the piece may go on only where the rest allows it
  | clean plain run =>
    refine .clean (fun t ht => ?_) fun {s before more} hs hmore => ?_
    · obtain ht | ht := List.mem_append.1 ht
      · exact h.plain t ht
      · obtain ⟨u, hu, rfl⟩ := List.mem_map.1 ht
        exact plain u hu
    · obtain ⟨s₁, hs₁, htokens₁⟩ := h.run hs (.inr hmore)
      obtain ⟨s₂, hs₂, htokens₂⟩ := run hs₁ hmore
      refine ⟨s₂, ?_, ?_⟩
      · rwa [h.split, ← List.append_assoc]
      · rw [htokens₁, htokens₂, hshift, shiftAll_append, List.append_assoc]
  | refused front e tokens error some_ahead run =>
    refine .refused (ts ++ shiftAll (byteLength taken) front) (e.shift (byteLength taken)) ?_ error
      ?_ fun {s before more} hs => ?_
    · rw [tokens, shiftAll_append, List.append_assoc]
      rfl
    · rw [h.split]
      exact List.append_ne_nil_of_left_ne_nil h.progress rest
    · obtain ⟨s₁, hs₁, htokens₁⟩ := h.run hs (.inl some_ahead)
      rw [htokens₁, run hs₁, hshift, shiftAll_append]
  | cutOff front last tokens unfinished run =>
    refine .cutOff (ts ++ shiftAll (byteLength taken) front) (last.shift (byteLength taken)) ?_ ?_
      fun {s before} hs => ?_
    · rw [tokens, shiftAll_append, List.append_assoc]
      rfl
    · rw [h.split]
      exact unfinished.append taken
    · rw [← List.append_nil ahead] at hs
      obtain ⟨s₁, hs₁, htokens₁⟩ := h.run hs (.inr inert_nil)
      rw [List.append_nil] at hs₁
      rw [htokens₁, run hs₁, hshift, shiftAll_append]

/-- Where no runes are ahead, only the brackets matter. -/
theorem exists_scans_nil (depths : Bracket → Nat) : ∃ ts, Scans depths [] ts := by
  -- with every bracket closed the scan ends, and otherwise it fails
  by_cases hclosed : depths = fun _ => 0
  · subst hclosed
    refine ⟨[], .clean (fun t ht => ?_) fun {s before more} hs _ => ⟨s, ?_, rfl⟩⟩
    · cases ht
    · rwa [List.append_nil]
  · refine ⟨[⟨.error, "unclosed bracket", .point 0⟩], .cutOff [] _ rfl (.bracket 0)
      fun {s before} hs => ?_⟩
    have hhead : s.cursor.head? = none := hs.holds.head?_eq
    have hopen : s.parens ≠ 0 ∨ s.braces ≠ 0 := by
      by_contra hnot
      rw [not_or, not_not, not_not] at hnot
      refine hclosed (funext fun b => ?_)
      rw [← hs.depth_eq]
      cases b with
      | paren => exact hnot.1
      | brace => exact hnot.2
    have hstep : s.scanNeutral =
        s.fail s.cursor.settle "unclosed bracket" (.point s.cursor.offset) := by
      rw [scanNeutral, hhead]
      exact if_pos hopen
    have hstop : s.scanNeutral.result.1 = none := by rw [hstep, result_fail]
    rw [tokens_run_of_stop hstop, hstep, tokens_fail, hs.holds.offset_eq, byteLength_nil,
      Nat.add_zero]
    simp only [shiftAll_cons, shiftAll_nil, Token.shift, Span.shift, Span.point, Nat.zero_add]

/-- **What a scan makes of the runes ahead** is the same wherever they stand. -/
theorem exists_scans (depths : Bracket → Nat) (ahead : List Char) :
    ∃ ts, Scans depths ahead ts := by
  -- on the number of runes, of which each piece takes at least one
  obtain ⟨n, hn⟩ : ∃ n, n = ahead.length := ⟨_, rfl⟩
  induction n using Nat.strongRecOn generalizing depths ahead with
  | _ n ih =>
    by_cases hne : ahead = []
    · subst hne
      exact exists_scans_nil depths
    · cases exists_piece depths hne with
      | passed ts taken rest depths' passes =>
        have hlength := List.length_pos_iff.2 passes.progress
        have hlt : rest.length < n := by
          rw [hn, passes.split, List.length_append]
          omega
        obtain ⟨us, hrest⟩ := ih rest.length hlt depths' rest rfl
        exact ⟨_, passes.scans hrest⟩
      | refused e error refuses =>
        exact ⟨[e], .refused [] e rfl error hne fun hs => refuses hs⟩
      | cutOff ts last unfinished cuts =>
        exact ⟨ts ++ [last], .cutOff ts last rfl unfinished fun hs => cuts hs⟩

/-- The tokens of a scan that has just these runes ahead. -/
theorem Scans.tokens_run (h : Scans depths ahead ts) {s : Scanner}
    (hs : s.Stands before ahead depths) : s.run.tokens = shiftAll (byteLength before) ts := by
  cases h with
  | clean plain run =>
    rw [← List.append_nil ahead] at hs
    obtain ⟨s', hs', htokens⟩ := run hs inert_nil
    rw [htokens, hs'.tokens_eq_nil, List.append_nil]
  | refused front e tokens error some_ahead run =>
    rw [← List.append_nil ahead] at hs
    exact run hs
  | cutOff front last tokens unfinished run => exact run hs

/-- The tokens of a source are what a scan makes of its runes. -/
theorem scans_lex (source : String) : Scans (fun _ => 0) source.toList (lex source) := by
  obtain ⟨ts, hscans⟩ := exists_scans (fun _ => 0) source.toList
  have htokens : lex source = ts := by
    have hrun := hscans.tokens_run (stands_ofSource source)
    rwa [byteLength_nil, shiftAll_zero] at hrun
  rwa [htokens]

/-- **A scan between tokens starts anew**: where no bracket is open, its tokens are those that the
rest of the source has by itself, moved along. -/
theorem Stands.tokens_run {s : Scanner} {more : String}
    (h : s.Stands before more.toList fun _ => 0) :
    s.run.tokens = shiftAll (byteLength before) (lex more) :=
  (scans_lex more).tokens_run h

/-- A token at the start of a source. -/
theorem ofPiece_nil (kind : TokenKind) (text : String) :
    .ofPiece kind [] text.toList = (⟨kind, text, ⟨0, text.utf8ByteSize⟩⟩ : Token) := by
  rw [Token.ofPiece, String.ofList_toList, byteLength_nil, Nat.zero_add, utf8ByteSize_eq_byteLength]

/-- A token in front of a source that is scanned by itself. -/
theorem lex_eq_cons {text : String} {front : List Char} {more : String} {t : Token} {s : Scanner}
    (h : s.Stands front more.toList fun _ => 0)
    (htokens : (ofSource text ⟨false⟩).run.tokens = t :: s.run.tokens) :
    lex text = t :: (lex more).map (·.shift (byteLength front)) := by
  have hrest := h.tokens_run
  rw [hrest] at htokens
  exact htokens

end Scanner

open Scanner

/-! ### White space between two sources -/

/-- **Sources are scanned by themselves** where white space separates them, if the first one ends
without a failure and without an end marker. -/
theorem lex_append_white {a b : String} {r : Char}
    (hclean : ∀ t ∈ lex a, t.kind ≠ .error ∧ t.kind ≠ .endMarker) (hr : isWhite r = true) :
    lex (a ++ String.singleton r ++ b) = lex a ++ shiftAll (a.utf8ByteSize + 1) (lex b) := by
  have hfinal : ∀ t ∈ lex a, t.kind.isFinal = false := fun t ht =>
    TokenKind.isFinal_eq_false (hclean t ht).1 (hclean t ht).2
  have hstart := stands_ofSource (a ++ String.singleton r ++ b)
  rw [String.toList_append, String.toList_append, String.toList_singleton, List.append_assoc]
    at hstart
  cases scans_lex a with
  -- white space keeps the last token of the first source from going on
  | clean plain run =>
    obtain ⟨s₁, hs₁, htokens₁⟩ := run hstart (inert_cons hr)
    obtain ⟨s₂, hs₂, htokens₂⟩ := hs₁.white hr
    have hsize : byteLength (a.toList ++ [r]) = a.utf8ByteSize + 1 := by
      rw [byteLength_append, ← utf8ByteSize_eq_byteLength]
      obtain rfl | rfl | rfl | rfl := isWhite_cases hr <;> rfl
    have htokens₃ := (scans_lex b).tokens_run hs₂
    rw [List.nil_append, hsize] at htokens₃
    have htokens : lex (a ++ String.singleton r ++ b) = shiftAll 0 (lex a) ++ s₁.run.tokens :=
      htokens₁
    rw [htokens, htokens₂, htokens₃, shiftAll_zero]
  -- the other two endings are excluded
  | refused front e tokens error =>
    have hmem : e ∈ lex a := by
      rw [tokens]
      exact List.mem_concat_self
    exact absurd error (hclean e hmem).1
  | cutOff front last tokens unfinished =>
    have hmem : last ∈ lex a := by
      rw [tokens]
      exact List.mem_concat_self
    have hnot := hfinal last hmem
    cases unfinished <;> cases hnot

/-! ### Failures -/

/-- The token is a failure that a rune has raised, and not the end of the source. -/
def Token.Raised (source : String) (e : Token) : Prop :=
  e.kind = .error ∧
    ("unexpected character".toList <+: e.text.toList ∨
      "unrecognized character".toList <+: e.text.toList ∨
      "bad number syntax".toList <+: e.text.toList ∨
      (e.text = "unterminated character constant" ∧
        (slice source e.span.start e.span.stop).toList.getLast? = some '\n'))

/-- The end of the source raises other messages, or the same about another span. -/
theorem Token.Raised.text {source : String} {e : Token} (h : e.Raised source) :
    e.text ≠ "unclosed bracket" ∧ (e.text = "unterminated character constant" →
      (slice source e.span.start e.span.stop).toList.getLast? = some '\n') := by
  obtain ⟨-, hraised⟩ := h
  refine ⟨fun htext => ?_, fun htext => ?_⟩
  · -- each of the four messages begins in its own way
    rw [htext] at hraised
    obtain hraised | hraised | hraised | ⟨hraised, -⟩ := hraised
    all_goals exact absurd hraised (by decide)
  · rw [htext] at hraised
    obtain hraised | hraised | hraised | ⟨-, hline⟩ := hraised
    · exact absurd hraised (by decide)
    · exact absurd hraised (by decide)
    · exact absurd hraised (by decide)
    · exact hline

/-- What might have gone on was not raised by a rune. -/
theorem not_raised_of_unfinished {source : String} {last : Token}
    (h : Unfinished source.toList last) : ¬ last.Raised source := by
  intro hraised
  cases h with
  | marker => cases hraised.1
  | bracket => exact hraised.text.1 rfl
  | constant front constant split noLine =>
    have hline := hraised.text.2 rfl
    have hsource : source.toList = front ++ (constant ++ []) := by
      rw [List.append_nil, split]
    rw [slice_append hsource, String.toList_ofList] at hline
    exact noLine (List.mem_of_getLast? hline)

/-- **A failure is final.** What comes after a rune that has ended a scan is never read. -/
theorem lex_append_of_raised {source : String} {ts : List Token} {e : Token}
    (hlex : lex source = ts ++ [e]) (hraised : e.Raised source) (more : String) :
    lex (source ++ more) = lex source := by
  have hstart := stands_ofSource (source ++ more)
  rw [String.toList_append] at hstart
  have hmem : e ∈ lex source := by
    rw [hlex]
    exact List.mem_concat_self
  cases scans_lex source with
  | clean plain =>
    have hnot := plain e hmem
    rw [hraised.1] at hnot
    cases hnot
  | refused front e' tokens error some_ahead run =>
    have htokens : lex (source ++ more) = shiftAll 0 (lex source) := run hstart
    rw [htokens, shiftAll_zero]
  -- what the end of the source has raised is nothing that a rune raises
  | cutOff front last tokens unfinished =>
    obtain ⟨-, hlast⟩ := List.append_inj' (hlex.symm.trans tokens) rfl
    obtain rfl := List.singleton_inj.1 hlast
    exact absurd hraised (not_raised_of_unfinished unfinished)

/-- **Scanning is compositional at white space and final at failures.** Where a source is scanned
without a failure and without an end marker, white space and another source after it add the tokens
of the other source, moved along. Where a scan ends in a failure that a rune has raised, no text
after it adds anything. -/
theorem lex_compositional :
    (∀ (a b : String) (r : Char), (∀ t ∈ lex a, t.kind ≠ .error ∧ t.kind ≠ .endMarker) →
      r ∈ [' ', '\t', '\r', '\n'] →
      lex (a ++ String.singleton r ++ b) = lex a ++ (lex b).map (·.shift (a.utf8ByteSize + 1))) ∧
    ∀ (source more : String) (ts : List Token) (e : Token), lex source = ts ++ [e] →
      e.Raised source → lex (source ++ more) = lex source := by
  refine ⟨fun a b r hclean hr => ?_, fun source more ts e hlex hraised => ?_⟩
  · exact lex_append_white hclean (isWhite_of_mem hr)
  · exact lex_append_of_raised hlex hraised more

/-- A number before a source of its own, and a word that a rune has ended too early. -/
theorem lex_compositional_of_two :
    (lex "x +1" = [⟨.identifier, "x", ⟨0, 1⟩⟩, ⟨.number, "+1", ⟨2, 4⟩⟩] ∧
      lex "(" = [⟨.bracketOpen, "(", ⟨0, 1⟩⟩, ⟨.error, "unclosed bracket", ⟨1, 1⟩⟩] ∧
      lex "x +1\n(" = lex "x +1" ++ (lex "(").map (·.shift 5)) ∧
    lex "x=" = [⟨.error, "unexpected character U+003D '='", ⟨1, 2⟩⟩] ∧
    lex "x=\"y" = lex "x=" := by
  have hclean : lex "x +1" = [⟨.identifier, "x", ⟨0, 1⟩⟩, ⟨.number, "+1", ⟨2, 4⟩⟩] := by
    decide +kernel
  have hfailure : lex "x=" = [] ++ [⟨.error, "unexpected character U+003D '='", ⟨1, 2⟩⟩] := by
    decide +kernel
  refine ⟨⟨hclean, by decide +kernel, ?_⟩, hfailure, ?_⟩
  · exact lex_compositional.1 "x +1" "(" '\n' (by rw [hclean]; decide) (by decide)
  · exact lex_compositional.2 "x=" "\"y" _ _ hfailure ⟨rfl, .inl (by decide)⟩

end DeclFront
