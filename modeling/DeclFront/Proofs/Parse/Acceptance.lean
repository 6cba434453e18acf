import DeclFront.Proofs.Parse.Demand
import DeclFront.Proofs.Parse.Fold

/-!
# The parser accepts its grammar

A list of tokens parses to a tree exactly when its significant tokens derive that tree and no more
than 128 bodies are ever open at once (`Scope.ofTokens_eq_ok_iff_prog`).

The proof follows the tokens. At each of them the demand of the machine is exact
(`Takes.awaits_iff`), so the only thing to account for besides the grammar is the limit on nesting:

* `Awaits.nesting_le`: the tree a machine leads to is at least as deep as the machine stands, so a
  tree within the limit never makes the machine refuse a body;
* `Within`: everything a machine has read lies within the limit, so the tree it delivers does.
-/

namespace DeclFront

open Grammar

variable {σ : Type}

/-! ### Depth reached and depth left -/

/-- How many bodies the declarations in focus are known to need. -/
def Focus.depth : Focus → Nat
  | .statement done => Scope.nesting done
  | .declaration done d (.step .closeBody) => max (Scope.nesting done) d.nesting
  | .declaration done _ _ => Scope.nesting done

/-- The declarations read so far need no more than 128 bodies at once, and as many are counted as
are open. -/
structure Within (enclosing : List OpenDecl) (focus : Focus) (openBodies : Nat) : Prop where
  count : openBodies = enclosing.length
  focus : enclosing.length + focus.depth ≤ maxOpenBodies
  before : ∀ outer rest, outer :: rest <:+ enclosing →
    rest.length + Scope.nesting outer.before ≤ maxOpenBodies

theorem FunctionDecl.nesting_pos (d : FunctionDecl) : 1 ≤ d.nesting := by
  rw [FunctionDecl.nesting_eq]
  omega

/-- The tree that completes a parse is at least as deep as the parse stands, and inside a
declaration one deeper. -/
theorem Awaits.nesting_le {enclosing : List OpenDecl} {focus : Focus} {ts : List Token} {T : Scope}
    (h : Awaits enclosing focus ts T) :
    enclosing.length + focus.depth ≤ Scope.nesting T ∧
      ∀ done d place, focus = .declaration done d place →
        enclosing.length + 1 ≤ Scope.nesting T := by
  -- along the scopes around the focus, whose declarations all become part of `T`
  induction h with
  | source prog =>
    refine ⟨?_, fun _ _ _ hf => by cases hf⟩
    simp only [Focus.depth, Scope.nesting_append, List.length_nil]
    omega
  | scope funcs marker rest ih =>
    refine ⟨?_, fun _ _ _ hf => by cases hf⟩
    -- seen from outside, the scope is a body, which adds one to its depth
    have hbody := ih.1
    simp only [Focus.depth, FunctionDecl.nesting_eq, Scope.nesting_append] at hbody
    simp only [Focus.depth, List.length_cons]
    omega
  | @declaration enclosing done T d d' place us vs decl rest ih =>
    have hscope := ih.1
    simp only [Focus.depth, Scope.nesting_append, Scope.nesting_cons, Scope.nesting_nil] at hscope
    have hpos := d'.nesting_pos
    refine ⟨?_, fun _ _ _ _ => by omega⟩
    -- only behind its body is anything known of the depth of the declaration itself
    cases decl with
    | closeBody h => simp only [Focus.depth]; omega
    | _ => simp only [Focus.depth]; omega

/-- Every move stays within the limit. -/
theorem Within.move {r : Reader σ} {t : Token} {enclosing : List OpenDecl} {focus : Focus}
    {m' : Machine σ} (h : Machine.Move r t enclosing focus m')
    (hw : Within enclosing focus r.openBodies) :
    Within m'.enclosing m'.focus m'.reader.openBodies := by
  obtain ⟨hcount, hfocus, hbefore⟩ := hw
  cases h with
  | @endBody outer enclosing done h | @cutBody outer enclosing done h =>
    -- the body joins its declaration, one level further out
    have houter := hbefore outer enclosing (List.suffix_refl _)
    simp only [Focus.depth, List.length_cons] at hfocus
    refine ⟨?_, ?_, fun o rest hs => hbefore o rest (hs.trans (List.suffix_cons _ _))⟩
    · rw [List.length_cons] at hcount
      simp only [Reader.closeBodies, Reader.putBack]
      omega
    · simp only [Focus.depth, FunctionDecl.nesting_eq]
      omega
  | @enterBody enclosing done d h room =>
    simp only [Focus.depth] at hfocus
    refine ⟨?_, ?_, ?_⟩
    · simp only [Reader.openBody, List.length_cons]
      omega
    · -- the limit bounds the bodies open before, so one more is still within it
      simp only [Focus.depth, Scope.nesting_nil, List.length_cons]
      omega
    · intro o rest hs
      obtain heq | hs := List.suffix_cons_iff.1 hs
      · cases heq
        exact hfocus
      · exact hbefore o rest hs
  | closeBody h =>
    -- the declaration joins those before it, which it was already counted with
    refine ⟨hcount, ?_, hbefore⟩
    simpa only [Focus.depth, Scope.nesting_append, Scope.nesting_cons, Scope.nesting_nil,
      Nat.max_zero] using hfocus
  | _ => exact ⟨hcount, hfocus, hbefore⟩

theorem within_start : Within [] (.statement []) 0 where
  count := rfl
  focus := by simp only [Focus.depth, Scope.nesting_nil, List.length_nil]; omega
  before outer rest hs := by simp at hs

/-! ### Token by token -/

namespace Machine

variable {m m' : Machine Unit} {t : Token} {ts : List Token} {T : Scope}

/-- What a machine demands before it takes a token is the token, and then what it demands
afterwards. -/
theorem Takes.awaits_iff (h : m.Takes t m') (hm : m.reader.backlog = []) :
    Awaits m.enclosing m.focus (t :: ts) T ↔ Awaits m'.enclosing m'.focus ts T := by
  cases h with
  | once move hback => rw [move.awaits_iff hm, hback, List.nil_append]
  | again first hback second hreader =>
    rw [first.awaits_iff hm, hback, List.singleton_append, second.awaits_iff rfl, hreader]
    rfl

theorem Takes.within (h : m.Takes t m')
    (hw : Within m.enclosing m.focus m.reader.openBodies) :
    Within m'.enclosing m'.focus m'.reader.openBodies :=
  h.invariant (fun _ _ _ _ => Within.move) hw

end Machine

namespace Progress

variable {m : Machine Unit} {t : Token} {ts : List Token} {T : Scope}

/-- A parse succeeds where its tokens end if nothing more is demanded. -/
theorem conclude_more_eq_ok_iff (hm : m.reader.backlog = []) :
    conclude (.more m) = .ok T ↔ Awaits m.enclosing m.focus [] T := by
  obtain ⟨r, hr⟩ := conclude_more hm
  rw [Machine.awaits_nil_iff]
  constructor
  · intro h
    rw [h] at hr
    exact Machine.accepts_of_onToken hr
  · intro h
    rw [h.onToken_eq, Progress.done.injEq] at hr
    exact hr.1.symm

/-- **Acceptance, from any point of a parse.** The parse delivers the tree `T` if the tokens left
complete it to `T` and `T` stays within the limit. -/
theorem conclude_foldl_push_eq_ok_iff (hts : ∀ t ∈ ts, t.isIgnorable = false)
    (hm : m.reader.backlog = []) (hw : Within m.enclosing m.focus m.reader.openBodies) :
    (ts.foldl push (.more m)).conclude = .ok T ↔
      Awaits m.enclosing m.focus ts T ∧ Scope.nesting T ≤ maxOpenBodies := by
  -- by induction on the tokens; `Within` is what makes the limit on the tree hold where they end
  induction ts generalizing m with
  | nil =>
    rw [List.foldl_nil, conclude_more_eq_ok_iff hm, iff_self_and, Machine.awaits_nil_iff]
    rintro ⟨henc, hfocus, -⟩
    have hdepth := hw.focus
    rw [hfocus] at hdepth
    simp only [Focus.depth] at hdepth
    omega
  | cons t ts ih =>
    have ht : t.isIgnorable = false := hts t List.mem_cons_self
    rw [List.foldl_cons, push_more ht]
    obtain ⟨m', habs, htakes⟩ | ⟨outcome, r, habs, hstop⟩ := Machine.absorb_cases hm t
    · rw [habs, ih (fun u hu => hts u (List.mem_cons_of_mem t hu)) htakes.backlog_eq_nil
        (htakes.within hw), htakes.awaits_iff hm]
    · rw [habs, foldl_push_done]
      change outcome = .ok T ↔ _
      cases outcome with
      | ok S =>
        -- an end marker between two statements of the source
        obtain ⟨henc, hfocus, hend⟩ := Machine.accepts_of_onToken hstop
        have hk : t.kind = .endMarker := hend t rfl
        have hdepth := hw.focus
        rw [hfocus] at hdepth
        simp only [Focus.depth] at hdepth
        rw [henc, hfocus, Awaits.source_cons_iff, Except.ok.injEq]
        simp only [hk, reduceCtorEq, false_and, true_and, false_or]
        constructor
        · rintro rfl
          exact ⟨rfl, by omega⟩
        · rintro ⟨rfl, -⟩
          rfl
      | error e =>
        -- a token that is demanded does not make the machine fail
        refine iff_of_false (by simp) ?_
        rintro ⟨hawaits, hnest⟩
        obtain ⟨m', hmove⟩ | haccept | hover :=
          Machine.exists_move_of_awaits (r := m.reader.note t) hawaits
        · rw [hmove.onToken_eq] at hstop
          cases hstop
        · rw [haccept.onToken_eq] at hstop
          cases hstop
        · -- the body refused is one that the tree has
          obtain ⟨⟨done, d, hfocus⟩, -, hfull⟩ := hover
          have hdeep := hawaits.nesting_le.2 done d _ hfocus
          have hcount : m.reader.openBodies = m.enclosing.length := hw.count
          change maxOpenBodies ≤ m.reader.openBodies at hfull
          omega

end Progress

/-- A list of tokens parses to the tree `T` if its significant tokens are what a parse demands for
`T` at the start. -/
theorem Scope.ofTokens_eq_ok_iff_awaits (ts : List Token) (T : Scope) :
    Scope.ofTokens ts = .ok T ↔
      Awaits [] (.statement []) (significant ts) T ∧ Scope.nesting T ≤ maxOpenBodies := by
  rw [Scope.ofTokens_eq_conclude, ← Progress.foldl_push_filter]
  refine Progress.conclude_foldl_push_eq_ok_iff ?_ rfl within_start
  intro t ht
  simpa using (List.mem_filter.1 ht).2

/-- **The parser accepts exactly its grammar.** A list of tokens parses to the tree `T` if and only
if its significant tokens derive `T` and at most 128 bodies of `T` are open at once. -/
theorem Scope.ofTokens_eq_ok_iff_prog (ts : List Token) (T : Scope) :
    Scope.ofTokens ts = .ok T ↔ Prog (significant ts) T ∧ Scope.nesting T ≤ 128 := by
  rw [Scope.ofTokens_eq_ok_iff_awaits, Awaits.start_iff]
  rfl

end DeclFront
