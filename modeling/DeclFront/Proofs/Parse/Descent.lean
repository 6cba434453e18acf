import DeclFront.Proofs.Parse.Frame

/-!
# Recursive descent

A machine keeps the declarations that are open on a stack of its own. The grammar suggests another
way: a scope is read statement by statement, a declaration step by step, and the step at a body
reads a whole scope in turn. That way keeps no stack: the declarations that are open are the calls
that have not returned. `Reader.readStep` is a step of that kind, and here it is shown to fit in.

* `Machine.run_inside` says that a machine which reads a body does, inside a declaration, what it
  does alone, and goes on with the body it has read.
* `Machine.run_readStep` follows for one step. It is all that is to be said about the eight steps,
  whatever token they find.
* `Reader.readDeclaration` runs one step after another, and `Reader.readStatements_eq` puts the
  declarations together: a scope is read as by recursive descent, with the same outcome, the same
  failure and the same reader left behind.
-/

namespace DeclFront

variable {σ : Type}

/-! ### A machine inside a declaration -/

/-- The machine, in the body of the declaration `outer`. -/
def Machine.inside (m : Machine σ) (outer : OpenDecl) : Machine σ :=
  ⟨m.reader, m.enclosing ++ [outer], m.focus⟩

/-- Where a machine in the body of `outer` goes on. At the end of the body it goes on behind it; a
failure inside is a failure of the whole. -/
def Progress.inside (outer : OpenDecl) : Progress σ → Progress σ
  | more m => more (m.inside outer)
  | done (.ok body) r =>
    more ⟨r.closeBodies 1, [],
      .declaration outer.before { outer.decl with body := body } (.step .closeBody)⟩
  | done (.error e) r => done (.error e) (r.closeBodies 1)

/-- To close bodies in two portions is to close them at once. -/
theorem Reader.closeBodies_closeBodies (r : Reader σ) (k n : Nat) :
    (r.closeBodies k).closeBodies n = r.closeBodies (k + n) := by
  simp only [closeBodies, Nat.sub_sub]

namespace Machine

variable (m : Machine σ) (outer : OpenDecl) (level : ScopeLevel) (r : Reader σ)
  (token : Option Token)

/-- Whatever surrounds a body, the scope that is read in it is a body. -/
theorem innerLevel_inside : (m.inside outer).innerLevel level = m.innerLevel .body := by
  unfold innerLevel inside
  cases m.enclosing <;> rfl

/-- One more body is closed when the machine gives up. -/
theorem abandon_inside (e : SyntaxError) :
    (m.inside outer).abandon e r = (m.abandon e r).inside outer := by
  show Progress.done _ (r.closeBodies (m.enclosing ++ [outer]).length) =
    .done _ ((r.closeBodies m.enclosing.length).closeBodies 1)
  rw [Reader.closeBodies_closeBodies, List.length_append, List.length_singleton]

theorem onStatement_inside (done : Scope) :
    (m.inside outer).onStatement level done r token =
      (m.onStatement .body done r token).inside outer := by
  unfold onStatement
  rw [innerLevel_inside]
  cases r.reactStatement (m.innerLevel .body) token with
  | declare q => rfl
  | fail e q => exact m.abandon_inside outer q e
  | close q =>
    -- the scope that ends is the one in `outer`, or one further in
    obtain ⟨reader, enclosing, focus⟩ := m
    cases enclosing <;> rfl

theorem onDeclaration_inside (done : Scope) (decl : FunctionDecl) (place : DeclPlace) :
    (m.inside outer).onDeclaration done decl place r token =
      (m.onDeclaration done decl place r token).inside outer := by
  unfold onDeclaration
  cases place with
  | step s =>
    dsimp only
    cases r.react decl token s with
    -- every other reaction leaves the stack as it is, or puts the declaration on top
    | fail e q => exact m.abandon_inside outer q e
    | _ => rfl
  | argumentType argument =>
    dsimp only
    cases r.reactType decl argument token with
    | ok decl' => rfl
    | error e => exact m.abandon_inside outer r e

/-- **What surrounds a body does not matter to it.** -/
theorem onToken_inside :
    (m.inside outer).onToken level r token = (m.onToken .body r token).inside outer := by
  obtain ⟨reader, enclosing, focus⟩ := m
  cases focus with
  | statement done => exact onStatement_inside _ outer level r token done
  | declaration done decl place => exact onDeclaration_inside _ outer r token done decl place

end Machine

/-! ### The tokens left -/

/-- At most one token may be put back. -/
theorem DeclPlace.rank_le_one (place : DeclPlace) : place.rank ≤ 1 := by
  cases place with
  | argumentType argument => exact Nat.zero_le 1
  | step s => cases s <;> decide

theorem Focus.rank_le_one (focus : Focus) : focus.rank ≤ 1 := by
  cases focus with
  | statement done => exact Nat.le_refl 1
  | declaration done decl place => exact place.rank_le_one

section Remaining

variable [TokenSupply σ]

/-- A token that is read is no longer left to be read. -/
theorem Reader.remaining_next_add_le (r : Reader σ) :
    r.next.2.remaining + r.next.1.toList.length ≤ r.remaining := by
  fun_induction Reader.next r with
  | case1 r hdraw => exact Nat.le_refl _
  | case2 r t r' hdraw lt hignorable ih => exact Nat.le_trans ih (Nat.le_of_lt lt)
  | case3 r t r' hdraw lt hkept => exact lt

namespace Machine

variable {m : Machine σ} {level : ScopeLevel} {r q : Reader σ} {token : Option Token}
  {outcome : Except SyntaxError Scope}

/-- A machine that stops has put back its last token at most. -/
theorem remaining_of_onToken_eq_done (h : m.onToken level r token = .done outcome q) :
    q.remaining ≤ r.remaining + token.toList.length := by
  unfold onToken at h
  cases hfocus : m.focus with
  | declaration done decl place =>
    rw [hfocus] at h
    cases outcome with
    -- a failure closes bodies and leaves the tokens alone
    | error e =>
      rw [eq_of_onDeclaration_eq_error h, Reader.remaining_closeBodies]
      exact Nat.le_add_right _ _
    | ok body =>
      -- inside a declaration a machine does not stop with success
      dsimp only [onDeclaration] at h
      repeat' split at h
      all_goals cases h
  | statement done =>
    rw [hfocus] at h
    cases outcome with
    | error e =>
      rw [eq_of_onStatement_eq_error h, Reader.remaining_closeBodies]
      exact Nat.le_add_right _ _
    | ok body =>
      dsimp only [onStatement] at h
      cases hreact : r.reactStatement (m.innerLevel level) token with
      | declare q' => rw [hreact] at h; cases h
      | fail e q' => rw [hreact] at h; cases h
      | close q' =>
        rw [hreact] at h
        dsimp only at h
        split at h <;> cases h
        cases token with
        | some t => exact Reader.remaining_of_close hreact
        | none =>
          -- there is no token to put back
          unfold Reader.reactStatement at hreact
          dsimp only at hreact
          split at hreact <;> cases hreact
          exact Nat.le_refl _

/-- **A run leaves no more tokens than it was given.** -/
theorem remaining_run_le (m : Machine σ) (level : ScopeLevel) :
    (m.run level).2.remaining ≤ m.reader.remaining := by
  fun_induction run m level with
  | case1 m m' hstep lt ih =>
    -- the measure counts tokens twice, and puts at most one on top
    have hrank := m.focus.rank_le_one
    simp only [measure] at lt
    omega
  | case2 m outcome r hstep =>
    have hnext := m.reader.remaining_next_add_le
    have hdone := remaining_of_onToken_eq_done hstep
    exact Nat.le_trans hdone hnext

end Machine

end Remaining

/-! ### Steps and declarations -/

variable [TokenSupply σ]

/-- **A body is read as if it stood alone.** -/
theorem Machine.run_inside (m : Machine σ) (outer : OpenDecl) (level : ScopeLevel) :
    (m.inside outer).run level =
      match m.run .body with
      | (.ok body, r) =>
        run ⟨r.closeBodies 1, [],
          .declaration outer.before { outer.decl with body := body } (.step .closeBody)⟩ level
      | (.error e, r) => (.error e, r.closeBodies 1) := by
  fun_induction run m .body with
  | case1 m m' hstep _ ih =>
    have hinside : (m.inside outer).step level = .more (m'.inside outer) := by
      have htoken := m.onToken_inside outer level m.reader.next.2 m.reader.next.1
      rw [show m.onToken .body _ _ = .more m' from hstep] at htoken
      exact htoken
    rw [run_of_step_eq_more hinside, ih]
  | case2 m outcome r hstep =>
    have htoken := m.onToken_inside outer level m.reader.next.2 m.reader.next.1
    rw [show m.onToken .body _ _ = .done outcome r from hstep] at htoken
    cases outcome with
    -- at the end of the body the run goes on behind it
    | ok body => exact run_of_step_eq_more htoken
    | error e => exact run_of_step_eq_done htoken

namespace Reader

variable {r : Reader σ} {decl : FunctionDecl} {s next : DeclStep}

omit [TokenSupply σ] in
/-- Without a token every step fails. -/
theorem exists_react_none (r : Reader σ) (decl : FunctionDecl) (s : DeclStep) :
    ∃ e, r.react decl none s = .fail e r := by
  cases s <;> exact ⟨_, rfl⟩

theorem remaining_readType_le (r : Reader σ) (decl : FunctionDecl) (argument : String) :
    (r.readType decl argument).reader.remaining ≤ r.remaining := by
  have hread := r.remaining_next_add_le
  have htype : (r.readType decl argument).reader = r.next.2 := by
    unfold readType
    dsimp only
    cases r.next.2.reactType decl argument r.next.1 <;> rfl
  rw [htype]
  omega

theorem remaining_readBody_le (r : Reader σ) (decl : FunctionDecl) :
    (r.readBody decl).reader.remaining ≤ r.remaining := by
  have hrun := Machine.remaining_run_le (.start r) .body
  rw [readBody_eq]
  unfold readScope
  cases hscope : (Machine.start r).run .body with
  | mk outcome q =>
    rw [hscope] at hrun
    cases outcome <;> exact hrun

/-- A step that goes on leaves less to do. -/
theorem measure_lt_of_readStep (h : (r.readStep decl s).next = .ok (some next)) :
    2 * (r.readStep decl s).reader.remaining + (DeclPlace.step next).rank <
      2 * r.remaining + (DeclPlace.step s).rank := by
  have hread := r.remaining_next_add_le
  have hrank := (DeclPlace.step next).rank_le_one
  unfold readStep at h ⊢
  dsimp only at h ⊢
  cases htoken : r.next.1 with
  -- a step without a token does not go on
  | none =>
    obtain ⟨e, he⟩ := exists_react_none r.next.2 decl s
    rw [htoken, he] at h
    cases h
  | some t =>
    rw [htoken] at h hread
    have hlt : r.next.2.remaining + 1 ≤ r.remaining := hread
    cases hreact : r.next.2.react decl (some t) s with
    | finish q => rw [hreact] at h; cases h
    | fail e q => rw [hreact] at h; cases h
    | goto next' decl' q =>
      have hgoto := measure_of_goto hreact
      rw [hreact] at h
      cases h
      dsimp only
      omega
    | awaitType argument q =>
      -- the type is a second token, and neither is put back
      obtain rfl := eq_of_awaitType hreact
      have htype := r.next.2.remaining_readType_le decl argument
      dsimp only
      omega
    | enterBody q =>
      -- a body leaves no more tokens than there are behind its brace
      obtain rfl := eq_openBody_of_enterBody hreact
      have hbody := r.next.2.openBody.remaining_readBody_le decl
      rw [remaining_openBody] at hbody
      dsimp only
      omega

/-- Read a declaration from the step `s` on, where `decl` is what is known of it. -/
def readDeclaration (r : Reader σ) (decl : FunctionDecl) (s : DeclStep) :
    Except SyntaxError FunctionDecl × Reader σ :=
  match h : (r.readStep decl s).next with
  | .ok (some next) =>
    have _lt := measure_lt_of_readStep h
    readDeclaration (r.readStep decl s).reader (r.readStep decl s).decl next
  | .ok none => (.ok (r.readStep decl s).decl, (r.readStep decl s).reader)
  | .error e => (.error e, (r.readStep decl s).reader)
termination_by 2 * r.remaining + (DeclPlace.step s).rank

/-- Read a scope of which the declarations `done` are complete. -/
def readStatements (r : Reader σ) (level : ScopeLevel) (done : Scope) :
    Except SyntaxError Scope × Reader σ :=
  Machine.run ⟨r, [], .statement done⟩ level

/-- What is read after a step of a declaration, if the declarations `done` stand before it. -/
def afterStep (level : ScopeLevel) (done : Scope) :
    StepOutcome σ → Except SyntaxError Scope × Reader σ
  | ⟨.ok (some next), decl, q⟩ => Machine.run ⟨q, [], .declaration done decl (.step next)⟩ level
  | ⟨.ok none, decl, q⟩ => q.readStatements level (done ++ [decl])
  | ⟨.error e, _, q⟩ => (.error e, q)

end Reader

namespace Machine

variable (r : Reader σ) (done : Scope) (decl : FunctionDecl) (s : DeclStep) (level : ScopeLevel)

/-- At the place of a type the machine does what `readType` does. -/
theorem run_readType (argument : String) :
    run ⟨r, [], .declaration done decl (.argumentType argument)⟩ level =
      Reader.afterStep level done (r.readType decl argument) := by
  unfold Reader.readType
  dsimp only
  have hstep : step ⟨r, [], .declaration done decl (.argumentType argument)⟩ level =
      onDeclaration ⟨r, [], .declaration done decl (.argumentType argument)⟩ done decl
        (.argumentType argument) r.next.2 r.next.1 := rfl
  unfold onDeclaration at hstep
  dsimp only at hstep
  cases htype : r.next.2.reactType decl argument r.next.1 with
  | ok decl' =>
    rw [htype] at hstep
    exact run_of_step_eq_more hstep
  | error e =>
    rw [htype] at hstep
    exact run_of_step_eq_done hstep

/-- **A step, and what follows.** The machine does what the step does and goes on behind it. -/
theorem run_readStep :
    run ⟨r, [], .declaration done decl (.step s)⟩ level =
      Reader.afterStep level done (r.readStep decl s) := by
  unfold Reader.readStep
  dsimp only
  have hstep : step ⟨r, [], .declaration done decl (.step s)⟩ level =
      onDeclaration ⟨r, [], .declaration done decl (.step s)⟩ done decl (.step s)
        r.next.2 r.next.1 := rfl
  unfold onDeclaration at hstep
  dsimp only at hstep
  cases hreact : r.next.2.react decl r.next.1 s with
  | goto next decl' q =>
    rw [hreact] at hstep
    exact run_of_step_eq_more hstep
  | finish q =>
    rw [hreact] at hstep
    exact run_of_step_eq_more hstep
  | fail e q =>
    rw [hreact] at hstep
    exact run_of_step_eq_done hstep
  | awaitType argument q =>
    rw [hreact] at hstep
    rw [run_of_step_eq_more hstep, run_readType]
  | enterBody q =>
    rw [hreact] at hstep
    -- from here on the machine is the one of the body, inside the declaration
    have hinside := (start q).run_inside ⟨done, decl⟩ level
    rw [run_of_step_eq_more hstep]
    dsimp only
    rw [Reader.readBody_eq]
    refine hinside.trans ?_
    show _ = Reader.afterStep level done (Reader.bodyOutcome decl ((start q).run .body))
    cases (start q).run .body with
    | mk outcome q' => cases outcome <;> rfl

/-- The steps of a declaration, one after another. -/
theorem run_readDeclaration :
    run ⟨r, [], .declaration done decl (.step s)⟩ level =
      match r.readDeclaration decl s with
      | (.ok decl', q) => q.readStatements level (done ++ [decl'])
      | (.error e, q) => (.error e, q) := by
  fun_induction Reader.readDeclaration r decl s with
  | case1 r decl s next hnext _ ih =>
    rw [run_readStep, ← ih]
    cases hread : r.readStep decl s with
    | mk outcome decl' q =>
      rw [hread] at hnext
      cases hnext
      rfl
  | case2 r decl s hnext =>
    rw [run_readStep]
    cases hread : r.readStep decl s with
    | mk outcome decl' q =>
      rw [hread] at hnext
      cases hnext
      rfl
  | case3 r decl s e hnext =>
    rw [run_readStep]
    cases hread : r.readStep decl s with
    | mk outcome decl' q =>
      rw [hread] at hnext
      cases hnext
      rfl

end Machine

namespace Reader

/-- **Recursive descent.** A scope is read statement by statement: at its end it is complete, a
token with which no statement begins is a failure, and a declaration is read by its steps, one after
another. The steps read the scopes of the bodies, and there the same holds. -/
theorem readStatements_eq (r : Reader σ) (level : ScopeLevel) (done : Scope) :
    r.readStatements level done =
      match r.next.2.reactStatement level r.next.1 with
      | .close q => (.ok done, q)
      | .fail e q => (.error e, q)
      | .declare q =>
        match q.readDeclaration (.named "") .keyword with
        | (.ok decl, q') => q'.readStatements level (done ++ [decl])
        | (.error e, q') => (.error e, q') := by
  have hstep : Machine.step ⟨r, [], .statement done⟩ level =
      Machine.onStatement ⟨r, [], .statement done⟩ level done r.next.2 r.next.1 := rfl
  unfold Machine.onStatement at hstep
  have hlevel : Machine.innerLevel ⟨r, [], .statement done⟩ level = level := rfl
  rw [hlevel] at hstep
  cases hreact : r.next.2.reactStatement level r.next.1 with
  | close q =>
    rw [hreact] at hstep
    exact Machine.run_of_step_eq_done hstep
  | fail e q =>
    rw [hreact] at hstep
    exact Machine.run_of_step_eq_done hstep
  | declare q =>
    rw [hreact] at hstep
    exact (Machine.run_of_step_eq_more hstep).trans (Machine.run_readDeclaration ..)

end Reader

end DeclFront
