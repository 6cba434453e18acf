import DeclFront.Proofs.Scan.Trivia

/-!
# How a scan ends

A scan is some steps that lead on, and one that does not. `Advances` is the first part, with the
tokens that were emitted on the way; whatever every step keeps is carried along it by one induction
(`Kept.advances`), and `Ready.exists_advances` adds the last step.

What the last step leaves behind is an `Ending`: nothing, where everything was read between tokens
and no bracket is open; a failure; or an end marker, where the source breaks off inside a delimited
piece. So a failure or an end marker is the last token of a scan, and an end marker lies at the end
of the source (`Ending.eq_of_endMarker`). If it is a comment that breaks off, its closer does not
come (`Dangling`).
-/

namespace DeclFront

/-! ### Runes that occur somewhere -/

/-- Runes that occur somewhere have a first occurrence. -/
theorem exists_clear_of_infix {closer ahead : List Char} (h : closer <:+: ahead) :
    ∃ body rest, ahead = body ++ (closer ++ rest) ∧ Clear closer body := by
  induction ahead with
  | nil =>
    obtain rfl : closer = [] := List.infix_nil.1 h
    exact ⟨[], [], rfl, trivial⟩
  | cons r ahead ih =>
    -- either it stands right here, or further on
    by_cases hfirst : closer <+: r :: ahead
    · obtain ⟨rest, hrest⟩ := hfirst
      exact ⟨[], rest, hrest.symm, trivial⟩
    · have hlater : closer <:+: ahead := (List.infix_cons_iff.1 h).resolve_left hfirst
      obtain ⟨body, rest, rfl, hclear⟩ := ih hlater
      refine ⟨r :: body, rest, rfl, fun hcloser => hfirst (hcloser.trans ⟨rest, ?_⟩), hclear⟩
      simp only [List.cons_append, List.append_assoc]

/-- Where the closer of a form without escapes does not come, it does not occur. -/
theorem Cursor.Lacks.not_infix {form : Delimited} {ahead : List Char} (h : Lacks form ahead)
    (hplain : form.escapes = false) : ¬ form.closer <:+: ahead := by
  intro hinfix
  obtain ⟨body, rest, rfl, hclear⟩ := exists_clear_of_infix hinfix
  -- a new cursor would both find it and not find it
  have hnew := Cursor.holds_ofSource (String.ofList (body ++ (form.closer ++ rest)))
  rw [String.toList_ofList] at hnew
  obtain ⟨c, hfound, -⟩ := hnew.seek_closed hplain hclear
  obtain ⟨c', hlost, -⟩ := h hnew
  rw [hfound] at hlost
  cases hlost

/-- Runes that open something between tokens and break off: a comment that never ends, or an opening
quote with nothing after it. -/
inductive Dangling : List Char → Prop
  | lineComment {body : List Char} (h : '\n' ∉ body) : Dangling ('/' :: '/' :: body)
  | blockComment {body : List Char} (h : ¬ ['*', '/'] <:+: body) : Dangling ('/' :: '*' :: body)
  | string : Dangling ['"']
  | quote : Dangling ['\x60']

namespace Scanner

/-! ### Steps that lead on -/

/-- The scan gets from the first state to the second by steps that lead on, and emits the tokens. -/
inductive Advances : Scanner → ScanState → List Token → Scanner → ScanState → Prop
  | refl (s : Scanner) (state : ScanState) : Advances s state [] s state
  | next {s s₁ s' : Scanner} {state state₁ state' : ScanState} {ts : List Token}
      (hstep : (s.step state).result = (some state₁, s₁))
      (rest : Advances s₁ state₁ ts s' state') :
      Advances s state ((s.step state).tokens ++ ts) s' state'

section Advances

variable {source : String} {rendered : List Char} {s s' : Scanner} {state state' : ScanState}
  {ts : List Token}

/-- **A scan is steps that lead on, and a last one.** -/
theorem Ready.exists_advances (h : s.Ready state) :
    ∃ ts s' state', Advances s state ts s' state' ∧ s'.Ready state' ∧
      (s'.step state').result.1 = none ∧
      (s.runFrom state).tokens = ts ++ (s'.step state').tokens := by
  -- on the weight, which every step lessens
  obtain ⟨n, hn⟩ : ∃ n, n = s.weight state := ⟨_, rfl⟩
  induction n using Nat.strongRecOn generalizing s state with
  | _ n ih =>
    cases hresult : (s.step state).result with
    | mk next s₁ =>
      cases next with
      | none =>
        have hstop : (s.step state).result.1 = none := by rw [hresult]
        exact ⟨[], s, state, .refl s state, h, hstop, tokens_runFrom_of_stop h hstop⟩
      | some next =>
        obtain ⟨hready, hlt⟩ := h.step next s₁ hresult
        obtain ⟨ts, s', state', hadv, hready', hstop, htokens⟩ := ih _ (hn ▸ hlt) hready rfl
        refine ⟨_, s', state', .next hresult hadv, hready', hstop, ?_⟩
        rw [tokens_runFrom_of_next h hresult, htokens, List.append_assoc]

/-- What was rendered goes on to be kept. -/
theorem Kept.advances (h : Kept source rendered s state) (hadv : Advances s state ts s' state') :
    (∀ t ∈ ts, t.kind.isFinal = false) ∧
      Kept source (rendered ++ (renderAll ts).toList) s' state' := by
  induction hadv generalizing rendered with
  | refl =>
    refine ⟨fun t ht => ?_, ?_⟩
    · cases ht
    · show Kept source (rendered ++ []) _ _
      rwa [List.append_nil]
  | next hstep rest ih =>
    -- one step keeps what was rendered, and the rest goes on from there
    have hkeeps := h.step
    rw [Keeps, hstep] at hkeeps
    obtain ⟨hfirst, hkept⟩ := hkeeps
    obtain ⟨hrest, hkept'⟩ := ih hkept
    refine ⟨fun t ht => ?_, ?_⟩
    · obtain ht | ht := List.mem_append.1 ht
      · exact hfirst t ht
      · exact hrest t ht
    · rwa [renderAll_append, String.toList_append, ← List.append_assoc]

end Advances

/-! ### The last step -/

/-- What a scan leaves behind at its end, when `rendered` has been rendered of the source. -/
inductive Ending (source : String) (rendered : List Char) : List Token → Prop
  /-- Everything was read. -/
  | finished : Ending source rendered []
  | failed (e : Token) (error : e.kind = .error) : Ending source rendered [e]
  /-- The closer of a delimited piece does not come among the runes `ahead` that are left. -/
  | cutOff {state : ScanState} {form : Delimited} {ahead : List Char}
      (encloses : Encloses state form) (lacks : Cursor.Lacks form ahead)
      (whole : source.toList = rendered ++ (state.dropped ++ (state.collected ++ ahead))) :
      Ending source rendered
        ((if state.collected ++ ahead = [] then [] else
            [.ofPiece form.kind (rendered ++ state.dropped) (state.collected ++ ahead)]) ++
          [⟨.endMarker, "", .point source.utf8ByteSize⟩])

section Ending

variable {source : String} {rendered : List Char} {s : Scanner} {state : ScanState}
  {ending : List Token}

/-- A delimited piece whose closer was not found. -/
theorem Kept.ending_of_lost (h : Kept source rendered s state) {form : Delimited} {c : Cursor}
    (encloses : Encloses state form) (hseek : s.cursor.seek form = (false, c)) :
    Ending source rendered (s.step state).tokens := by
  obtain ⟨ahead, hc⟩ := h.holds
  have hc' := hc.of_seek_lost encloses.closer_ne_nil hseek
  have hwhole : source.toList = rendered ++ (state.dropped ++ (state.collected ++ ahead)) := by
    rw [← h.source_eq, hc.source_eq, List.append_assoc]
  have hlacks : Cursor.Lacks form ahead := by
    obtain ⟨body, rest, hfinds⟩ | hlacks :=
      Cursor.finds_or_lacks form encloses.closer_ne_nil ahead
    · rw [← List.append_nil ahead] at hc
      obtain ⟨c₁, hfound, -⟩ := hfinds.holds hc
      rw [hseek] at hfound
      cases hfound
    · exact hlacks
  -- the marker stands where everything has been read
  have hsize : byteLength (rendered ++ state.dropped) + byteLength (state.collected ++ ahead) =
      source.utf8ByteSize := by
    rw [utf8ByteSize_eq_byteLength, hwhole]
    simp only [byteLength_append, Nat.add_assoc]
  rw [encloses.step_eq, (scanDelimited_lost hseek hc').2, hsize]
  exact .cutOff encloses hlacks hwhole

/-- **The last step** leaves an ending. -/
theorem Kept.ends (h : Kept source rendered s state) (hstop : (s.step state).result.1 = none) :
    Ending source rendered (s.step state).tokens := by
  have hlost : ∀ {form : Delimited} {c : Cursor}, Encloses state form →
      s.cursor.seek form = (false, c) → Ending source rendered (s.step state).tokens :=
    fun encloses hseek => h.ending_of_lost encloses hseek
  -- what a lost closer leaves is said of the step itself, before the step is taken apart
  have hdoes := does_step s state
  generalize s.step state = step at hdoes hstop hlost ⊢
  cases hdoes with
  | finish => exact .finished
  | unclosed | stray | unknown | badChar | badNumber | badWord => exact .failed _ rfl
  | cut encloses hseek | cutEmpty encloses hseek => exact hlost encloses hseek
  | _ => cases hstop

/-- What is left at an end is no white space. -/
theorem Ending.isTrivia_eq_false (h : Ending source rendered ending) :
    ∀ t ∈ ending, t.kind.isTrivia = false := by
  cases h with
  | finished =>
    intro t ht
    cases ht
  | failed e error =>
    intro t ht
    rw [List.mem_singleton.1 ht, error]
    rfl
  | @cutOff state form ahead encloses =>
    intro t ht
    obtain ht | ht := List.mem_append.1 ht
    · split_ifs at ht
      · cases ht
      · rw [List.mem_singleton.1 ht]
        cases encloses <;> rfl
    · rw [List.mem_singleton.1 ht]
      rfl

/-- An end marker is the last of an ending, and lies at the end of the source. -/
theorem Ending.eq_of_endMarker {t : Token} {us vs : List Token} (h : Ending source rendered ending)
    (hsplit : ending = us ++ t :: vs) (hkind : t.kind = .endMarker) :
    vs = [] ∧ t = ⟨.endMarker, "", .point source.utf8ByteSize⟩ := by
  cases h with
  | finished => cases us <;> cases hsplit
  | failed e error =>
    have ht : t ∈ [e] := hsplit ▸ List.mem_append_right us List.mem_cons_self
    rw [List.mem_singleton.1 ht, error] at hkind
    cases hkind
  | @cutOff state form ahead encloses =>
    obtain rfl | ⟨vs, last, rfl⟩ := List.eq_nil_or_concat vs
    · obtain ⟨-, ht⟩ := List.append_inj' hsplit rfl
      exact ⟨rfl, (List.singleton_inj.1 ht).symm⟩
    · -- before the last there is at most a token of the piece that was cut off
      rw [List.concat_eq_append, ← List.cons_append, ← List.append_assoc] at hsplit
      obtain ⟨hfront, -⟩ := List.append_inj' hsplit rfl
      have ht : t ∈ us ++ t :: vs := List.mem_append_right us List.mem_cons_self
      rw [← hfront] at ht
      split_ifs at ht
      · cases ht
      · rw [List.mem_singleton.1 ht] at hkind
        cases encloses <;> cases hkind

/-- A token of an ending that is not final is directly before an end marker. -/
theorem Ending.endMarker_of_not_isFinal {t : Token} {us vs : List Token}
    (h : Ending source rendered ending) (hsplit : ending = us ++ t :: vs)
    (hplain : t.kind.isFinal = false) : ∃ u, vs = [u] ∧ u.kind = .endMarker := by
  cases h with
  | finished => cases us <;> cases hsplit
  | failed e error =>
    have ht : t ∈ [e] := hsplit ▸ List.mem_append_right us List.mem_cons_self
    rw [List.mem_singleton.1 ht, error] at hplain
    cases hplain
  | @cutOff state form ahead encloses =>
    obtain rfl | ⟨vs, last, rfl⟩ := List.eq_nil_or_concat vs
    · -- the last one is the marker itself
      obtain ⟨-, ht⟩ := List.append_inj' hsplit rfl
      rw [← List.singleton_inj.1 ht] at hplain
      cases hplain
    · rw [List.concat_eq_append, ← List.cons_append, ← List.append_assoc] at hsplit
      obtain ⟨hfront, hlast⟩ := List.append_inj' hsplit rfl
      -- it is the one token before the marker
      have hlength := congrArg List.length hfront
      rw [List.length_append, List.length_cons] at hlength
      have hnone : vs = [] := by
        split_ifs at hlength
        rw [List.length_singleton] at hlength
        exact List.eq_nil_of_length_eq_zero (by omega)
      refine ⟨last, ?_, ?_⟩
      · rw [hnone]
        rfl
      · rw [← List.singleton_inj.1 hlast]

/-- An ending without a failure and without an end marker is none at all. -/
theorem Ending.eq_nil (h : Ending source rendered ending)
    (hclean : ∀ t ∈ ending, t.kind.isFinal = false) : ending = [] := by
  cases h with
  | finished => rfl
  | failed e error =>
    have hfinal := hclean e (List.mem_singleton_self e)
    rw [error] at hfinal
    cases hfinal
  | cutOff encloses =>
    cases hclean _ List.mem_concat_self

end Ending

end Scanner

/-- A scan is steps that lead on, whose tokens are not final, and an ending, which is the same
whether white space is reported or not. -/
theorem exists_advances_ending (source : String) :
    ∃ ts s state, Scanner.Advances (.ofSource source ⟨true⟩) .neutral ts s state ∧
      (s.step state).result.1 = none ∧ (∀ t ∈ ts, t.kind.isFinal = false) ∧
      Scanner.Ending source (renderAll ts).toList (s.step state).tokens ∧
      lexWith ⟨true⟩ source = ts ++ (s.step state).tokens ∧
      lex source = ts.filter (!·.kind.isTrivia) ++ (s.step state).tokens := by
  obtain ⟨ts, s, state, hadv, -, hstop, htokens⟩ :=
    (Scanner.ofSource source ⟨true⟩).ready_neutral.exists_advances
  obtain ⟨hplain, hkept⟩ := (Scanner.kept_ofSource source).advances hadv
  have hending := hkept.ends hstop
  have hlex : lexWith ⟨true⟩ source = ts ++ (s.step state).tokens := htokens
  refine ⟨ts, s, state, hadv, hstop, hplain, hending, hlex, ?_⟩
  have hfilter : (s.step state).tokens.filter (!·.kind.isTrivia) = (s.step state).tokens := by
    refine List.filter_eq_self.2 fun t ht => ?_
    rw [hending.isTrivia_eq_false t ht]
    rfl
  rw [lex_eq_filter ⟨true⟩, hlex, List.filter_append, hfilter]

/-- **How a scan ends.** Its tokens are some that are not final, and an ending; white space is only
among the former. -/
theorem exists_ending (source : String) :
    ∃ ts ending, lexWith ⟨true⟩ source = ts ++ ending ∧
      lex source = ts.filter (!·.kind.isTrivia) ++ ending ∧
      (∀ t ∈ ts, t.kind.isFinal = false) ∧
      Scanner.Ending source (renderAll ts).toList ending := by
  obtain ⟨ts, s, state, -, -, hplain, hending, hall, hlex⟩ := exists_advances_ending source
  exact ⟨ts, _, hall, hlex, hplain, hending⟩

/-- A scan without a failure and without an end marker ends with a step that emits nothing. -/
theorem exists_advances_of_clean {source : String}
    (hclean : ∀ t ∈ lex source, t.kind.isFinal = false) :
    ∃ ts s state, Scanner.Advances (.ofSource source ⟨true⟩) .neutral ts s state ∧
      (s.step state).result.1 = none ∧ (s.step state).tokens = [] ∧
      lex source = ts.filter (!·.kind.isTrivia) := by
  obtain ⟨ts, s, state, hadv, hstop, -, hending, -, hlex⟩ := exists_advances_ending source
  have hlast : (s.step state).tokens = [] := by
    refine hending.eq_nil fun t ht => hclean t ?_
    rw [hlex]
    exact List.mem_append_right _ ht
  refine ⟨ts, s, state, hadv, hstop, hlast, ?_⟩
  rw [hlex, hlast, List.append_nil]

/-- **An end marker is the last token**, and lies at the end of the source. -/
theorem eq_of_lex_eq_append_endMarker {source : String} {us vs : List Token} {t : Token}
    (h : lex source = us ++ t :: vs) (hkind : t.kind = .endMarker) :
    vs = [] ∧ t = ⟨.endMarker, "", .point source.utf8ByteSize⟩ := by
  obtain ⟨ts, ending, -, hlex, hplain, hending⟩ := exists_ending source
  rw [hlex] at h
  -- the marker cannot stand among the tokens before the ending
  obtain ⟨ws, rfl, hrest⟩ | ⟨ws, hfront, hrest⟩ := List.append_eq_append_iff.1 h
  · exact hending.eq_of_endMarker hrest hkind
  · cases ws with
    | nil =>
      have hend : ending = [] ++ t :: vs := hrest.symm
      exact hending.eq_of_endMarker hend hkind
    | cons w ws =>
      obtain ⟨rfl, rfl⟩ := List.cons.inj hrest
      have ht : t ∈ ts.filter (!·.kind.isTrivia) :=
        hfront ▸ List.mem_append_right us List.mem_cons_self
      have hfinal := hplain t (List.mem_filter.1 ht).1
      rw [hkind] at hfinal
      cases hfinal

end DeclFront
