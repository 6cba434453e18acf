import DeclFront.Proofs.Parse.FirstFailure
import DeclFront.Proofs.Scan.Concatenation

/-!
# Parsing two sources as one

A parse that has read a whole source stands where it stood at the start, but for the declarations
that it has completed: no body is open, no token waits, and the furthest end is behind whatever
comes next. So the declarations of a second source are added to those of the first, and a failure in
it is the failure of the second source by itself, moved along (`Scope.ofTokens_append`).

The comparison is between a parse of the second source alone and one that goes on after the first.
The second is an image of the first under `Machine.moved`, token by token.
-/

namespace DeclFront

/-- The failure moved right by `n` bytes. -/
def SyntaxError.shift (n : Nat) : SyntaxError → SyntaxError
  | expectedFunction found span => expectedFunction found (span.shift n)
  | expectedName found span => expectedName found (span.shift n)
  | expectedOpening bracket found span => expectedOpening bracket found (span.shift n)
  | expectedClosing bracket found span => expectedClosing bracket found (span.shift n)
  | argumentsCutOff found span => argumentsCutOff found (span.shift n)
  | expectedArgument found span => expectedArgument found (span.shift n)
  | expectedType found span => expectedType found (span.shift n)
  | expectedDelimiter found span => expectedDelimiter found (span.shift n)
  | unexpectedEnd span => unexpectedEnd (span.shift n)
  | unsupportedStatement found span => unsupportedStatement found (span.shift n)
  | nestedTooDeep limit span => nestedTooDeep limit (span.shift n)
  | lexical message span => lexical message (span.shift n)

/-! ### A parse behind other declarations -/

/-- The result of a parse that goes on after the declarations `A`, with everything moved right by
`n` bytes. -/
def moveResult (A : Scope) (n : Nat) : Except SyntaxError Scope → Except SyntaxError Scope
  | .ok B => .ok (A ++ B)
  | .error e => .error (e.shift n)

/-- The declarations `done` of a scope behind `A`, which stand in the outermost scope alone. -/
def Scope.behind (A : Scope) (enclosing : List OpenDecl) (done : Scope) : Scope :=
  if enclosing.isEmpty then A ++ done else done

/-- The open declarations behind `A`. -/
def OpenDecl.behind (A : Scope) : List OpenDecl → List OpenDecl
  | [] => []
  | outer :: enclosing => ⟨Scope.behind A enclosing outer.before, outer.decl⟩ :: behind A enclosing

/-- What is in focus behind `A`. -/
def Focus.behind (A : Scope) (enclosing : List OpenDecl) : Focus → Focus
  | .statement done => .statement (Scope.behind A enclosing done)
  | .declaration done decl place => .declaration (Scope.behind A enclosing done) decl place

/-- The reader with everything moved right by `n` bytes. -/
def Reader.moved (n : Nat) (r : Reader Unit) : Reader Unit :=
  ⟨(), shiftAll n r.backlog, r.furthest + n, r.openBodies⟩

/-- The machine behind the declarations `A`, with everything moved right by `n` bytes. -/
def Machine.moved (A : Scope) (n : Nat) (m : Machine Unit) : Machine Unit :=
  ⟨m.reader.moved n, OpenDecl.behind A m.enclosing, m.focus.behind A m.enclosing⟩

/-- The outcome of a step behind the declarations `A`, with everything moved right by `n` bytes. -/
def Progress.moved (A : Scope) (n : Nat) : Progress Unit → Progress Unit
  | more m => more (m.moved A n)
  | done outcome r => done (moveResult A n outcome) (r.moved n)

/-- The reaction of a step of a declaration, moved right by `n` bytes. -/
def Reaction.moved (n : Nat) : Reaction Unit → Reaction Unit
  | goto next decl r => goto next decl (r.moved n)
  | awaitType argument r => awaitType argument (r.moved n)
  | enterBody r => enterBody (r.moved n)
  | finish r => finish (r.moved n)
  | fail error r => fail (error.shift n) (r.moved n)

/-- The reaction at the start of a statement, moved right by `n` bytes. -/
def StatementReaction.moved (n : Nat) : StatementReaction Unit → StatementReaction Unit
  | declare r => declare (r.moved n)
  | close r => close (r.moved n)
  | fail error r => fail (error.shift n) (r.moved n)

section Behind

variable (A done : Scope) (decl : FunctionDecl) (enclosing : List OpenDecl)

/-- A declaration that is completed comes last, behind `A` or inside a body. -/
theorem Scope.behind_append :
    Scope.behind A enclosing done ++ [decl] = Scope.behind A enclosing (done ++ [decl]) := by
  cases enclosing with
  | nil => exact List.append_assoc A done [decl]
  | cons outer enclosing => rfl

/-- The same bodies are open, whatever stands before. -/
theorem OpenDecl.isEmpty_behind : (OpenDecl.behind A enclosing).isEmpty = enclosing.isEmpty := by
  cases enclosing <;> rfl

theorem OpenDecl.length_behind : (OpenDecl.behind A enclosing).length = enclosing.length := by
  induction enclosing with
  | nil => rfl
  | cons outer enclosing ih => exact congrArg (· + 1) ih

end Behind

/-! ### Reactions to a token that was moved -/

namespace Reader

variable (r : Reader Unit) (n : Nat) (t : Token) (token : Option Token)

/-- What is read later ends later. -/
theorem note_moved : (r.moved n).note (t.shift n) = (r.note t).moved n := by
  have hmax : max (r.furthest + n) (t.span.stop + n) = max r.furthest t.span.stop + n :=
    Nat.add_max_add_right r.furthest t.span.stop n
  unfold note moved
  rw [← hmax]
  rfl

/-- A statement depends on the kind and the text of its token, and these are not moved. -/
theorem reactStatement_moved (level : ScopeLevel) :
    (r.moved n).reactStatement level (token.map (·.shift n)) =
      (r.reactStatement level token).moved n := by
  cases token with
  | none => cases level <;> rfl
  | some t =>
    have hkind : (t.shift n).kind = t.kind := rfl
    have hcloses : (t.shift n).closes .brace = t.closes .brace := rfl
    unfold reactStatement
    simp only [Option.map_some, hkind, hcloses]
    -- both sides make the same tests, and what they make of them is moved
    split_ifs <;> rfl

/-- So does a step of a declaration; the count of open bodies, which it also looks at, is the same.
-/
theorem react_moved (decl : FunctionDecl) (s : DeclStep) :
    (r.moved n).react decl (token.map (·.shift n)) s = (r.react decl token s).moved n := by
  cases token with
  -- every test is the same for the moved token; only spans differ, in what is reported
  | none => cases s <;> rfl
  | some t =>
    have hkind : (t.shift n).kind = t.kind := rfl
    have hopens : ∀ b, (t.shift n).opens b = t.opens b := fun _ => rfl
    have hcloses : ∀ b, (t.shift n).closes b = t.closes b := fun _ => rfl
    have hliteral : (t.shift n).isLiteral "," = t.isLiteral "," := rfl
    have hcut : isCutOff (some (t.shift n)) = isCutOff (some t) := rfl
    have hopen : (r.moved n).openBodies = r.openBodies := rfl
    cases s <;>
      simp only [react, Option.map_some, Option.any_some, hkind, hopens, hcloses, hliteral, hcut,
        hopen] <;> split_ifs <;> rfl

/-- And so does a type. -/
theorem reactType_moved (decl : FunctionDecl) (argument : String) :
    (r.moved n).reactType decl argument (token.map (·.shift n)) =
      (r.reactType decl argument token).mapError (·.shift n) := by
  cases token with
  | none => rfl
  | some t =>
    have hkind : (t.shift n).kind = t.kind := rfl
    have hcut : isCutOff (some (t.shift n)) = isCutOff (some t) := rfl
    unfold reactType
    simp only [Option.map_some, hkind, hcut]
    split_ifs <;> rfl

end Reader

namespace Machine

variable (A : Scope) (n : Nat) (m : Machine Unit) (r : Reader Unit) (token : Option Token)

/-- The level is that of the bodies that are open. -/
theorem innerLevel_moved (level : ScopeLevel) :
    (m.moved A n).innerLevel level = m.innerLevel level := by
  unfold innerLevel
  rw [show (m.moved A n).enclosing = OpenDecl.behind A m.enclosing from rfl,
    OpenDecl.isEmpty_behind]

/-- As many bodies are closed on both sides. -/
theorem abandon_moved (e : SyntaxError) :
    (m.moved A n).abandon (e.shift n) (r.moved n) = (m.abandon e r).moved A n := by
  unfold abandon
  rw [show (m.moved A n).enclosing = OpenDecl.behind A m.enclosing from rfl,
    OpenDecl.length_behind]
  rfl

/-- At the start of a statement the declarations `A` make no difference, unless the scope ends. Then
they are part of the outermost one. -/
theorem onStatement_moved (done : Scope) :
    (m.moved A n).onStatement .unit (Scope.behind A m.enclosing done) (r.moved n)
        (token.map (·.shift n)) = (m.onStatement .unit done r token).moved A n := by
  unfold onStatement
  rw [innerLevel_moved, Reader.reactStatement_moved]
  cases r.reactStatement (m.innerLevel .unit) token with
  | declare q => rfl
  | fail e q => exact abandon_moved A n m q e
  | close q =>
    -- a body closes into the declaration around it, and the outermost scope ends the parse
    obtain ⟨reader, enclosing, focus⟩ := m
    cases enclosing with
    | nil => rfl
    | cons outer enclosing => rfl

/-- Inside a declaration they do so only where it ends. -/
theorem onDeclaration_moved (done : Scope) (decl : FunctionDecl) (place : DeclPlace) :
    (m.moved A n).onDeclaration (Scope.behind A m.enclosing done) decl place (r.moved n)
        (token.map (·.shift n)) = (m.onDeclaration done decl place r token).moved A n := by
  cases place with
  | argumentType argument =>
    unfold onDeclaration
    dsimp only
    rw [Reader.reactType_moved]
    cases r.reactType decl argument token with
    | ok decl => rfl
    | error e => exact abandon_moved A n m r e
  | step s =>
    unfold onDeclaration
    dsimp only
    rw [Reader.react_moved]
    cases r.react decl token s with
    | goto next decl q => rfl
    | awaitType argument q => rfl
    | enterBody q => rfl
    | fail e q => exact abandon_moved A n m q e
    | finish q =>
      -- the declaration joins those before it, and `A` is still in front of them
      dsimp only [Reaction.moved]
      rw [Scope.behind_append]
      rfl

/-- **A step behind other declarations** is the same step, moved. -/
theorem onToken_moved :
    (m.moved A n).onToken .unit (r.moved n) (token.map (·.shift n)) =
      (m.onToken .unit r token).moved A n := by
  unfold onToken
  -- the focus is moved as well, so it is rewritten on the left first
  cases hfocus : m.focus with
  | statement done =>
    rw [show (m.moved A n).focus = .statement (Scope.behind A m.enclosing done) by
      rw [moved, hfocus]; rfl]
    exact onStatement_moved A n m r token done
  | declaration done decl place =>
    rw [show (m.moved A n).focus = .declaration (Scope.behind A m.enclosing done) decl place by
      rw [moved, hfocus]; rfl]
    exact onDeclaration_moved A n m r token done decl place

/-- What was put back was moved with everything else. -/
theorem reread_moved : (m.moved A n).reread = m.reread.moved A n := by
  obtain ⟨⟨supply, backlog, furthest, openBodies⟩, enclosing, focus⟩ := m
  cases backlog with
  | nil => rfl
  | cons t backlog =>
    have hstep := onToken_moved A n ⟨⟨supply, t :: backlog, furthest, openBodies⟩, enclosing, focus⟩
      (Reader.note ⟨supply, backlog, furthest, openBodies⟩ t) (some t)
    rw [← Reader.note_moved] at hstep
    exact hstep

/-- A token that is taken, with the second reading that it may need. -/
theorem absorb_moved (t : Token) : (m.moved A n).absorb (t.shift n) = (m.absorb t).moved A n := by
  unfold absorb
  have hstep := onToken_moved A n m (m.reader.note t) (some t)
  rw [← Reader.note_moved, Option.map_some] at hstep
  rw [show (m.moved A n).reader = m.reader.moved n from rfl, hstep]
  cases m.onToken .unit (m.reader.note t) (some t) with
  | more m' => exact reread_moved A n m'
  | done outcome q => rfl

end Machine

/-! ### Token after token -/

namespace Progress

variable (A : Scope) (n : Nat)

theorem push_moved (p : Progress Unit) (t : Token) :
    (p.moved A n).push (t.shift n) = (p.push t).moved A n := by
  cases p with
  | done outcome r => rfl
  | more m =>
    have hignorable : (t.shift n).isIgnorable = t.isIgnorable := rfl
    cases ht : t.isIgnorable with
    | true =>
      rw [push_of_ignorable ht, push_of_ignorable (hignorable.trans ht)]
    | false =>
      rw [push_more ht]
      exact (push_more (hignorable.trans ht) (m.moved A n)).trans (Machine.absorb_moved A n m t)

/-- **A list of tokens behind other declarations** is taken as it is alone, moved. -/
theorem foldl_push_moved (ts : List Token) (p : Progress Unit) :
    (shiftAll n ts).foldl push (p.moved A n) = (ts.foldl push p).moved A n := by
  induction ts generalizing p with
  | nil => rfl
  | cons t ts ih =>
    rw [shiftAll_cons, List.foldl_cons, List.foldl_cons, push_moved, ih]

/-- At the end of the tokens the results correspond. -/
theorem conclude_moved {p : Progress Unit} (hp : p.Settled) :
    (p.moved A n).conclude = moveResult A n p.conclude := by
  cases p with
  -- a parse that is over has its result; one that goes on decides without a token
  | done outcome r => rfl
  | more m =>
    have hm : m.reader.backlog = [] := hp m rfl
    have hmoved : (m.moved A n).reader.backlog = [] := by
      show shiftAll n m.reader.backlog = []
      rw [hm, shiftAll_nil]
    obtain ⟨r, hr⟩ := conclude_more hm
    obtain ⟨q, hq⟩ := conclude_more hmoved
    have hstep := Machine.onToken_moved A n m m.reader none
    rw [hr] at hstep
    have hboth := hq.symm.trans hstep
    rw [moved, Progress.done.injEq] at hboth
    exact hboth.1

/-- No token waits after any number of them. -/
theorem settled_foldl_push {p : Progress Unit} (hp : p.Settled) (ts : List Token) :
    (ts.foldl push p).Settled := by
  induction ts generalizing p with
  | nil => exact hp
  | cons t ts ih => exact ih (hp.push t)

end Progress

/-! ### After a whole source -/

/-- No move takes the failure of a scan. -/
theorem Machine.Move.kind_ne_error {r : Reader Unit} {t : Token} {enclosing : List OpenDecl}
    {focus : Focus} {m' : Machine Unit} (h : Machine.Move r t enclosing focus m') :
    t.kind ≠ .error := by
  intro hkind
  cases h with
  -- every move asks for a kind, by name or by what a token of that kind can do
  | declare h | cutBody h | keyword h | name h | argument h | argumentType h =>
    rw [hkind] at h
    cases h
  | endBody h | noParameter h | noComma h | closeParams h | closeBody h =>
    have hclose := Token.kind_of_closes h
    rw [hkind] at hclose
    cases hclose
  | openParams h | enterBody h =>
    have hopen := Token.kind_of_opens h
    rw [hkind] at hopen
    cases hopen
  | comma h =>
    have hliteral := Token.kind_of_isLiteral h
    rw [hkind] at hliteral
    cases hliteral

theorem Machine.Takes.kind_ne_error {t : Token} {m m' : Machine Unit} (h : m.Takes t m') :
    t.kind ≠ .error := by
  cases h with
  | once move => exact move.kind_ne_error
  | again first => exact first.kind_ne_error

/-- A parse between two statements of a source: the declarations `A` are complete, and what was read
ends at `furthest`. -/
def Machine.between (A : Scope) (furthest : Nat) : Machine Unit :=
  ⟨⟨(), [], furthest, 0⟩, [], .statement A⟩

/-- The start of a parse, behind the declarations `A`. -/
theorem Machine.start_moved (A : Scope) (n : Nat) :
    (Machine.start (Reader.ofSupply ())).moved A n = .between A n := by
  have hscope : Scope.behind A [] [] = A := List.append_nil A
  have hfurthest : 0 + n = n := Nat.zero_add n
  show (⟨⟨(), [], 0 + n, 0⟩, [], .statement (Scope.behind A [] [])⟩ : Machine Unit) = _
  rw [hscope, hfurthest]
  rfl

/-- Tokens that end within a bound have their furthest end within it. -/
theorem furthestEnd_le {ts : List Token} {n : Nat} (h : ∀ t ∈ ts, t.span.stop ≤ n) :
    furthestEnd ts ≤ n := by
  induction ts using List.reverseRecOn with
  | nil => exact Nat.zero_le n
  | append_singleton ts t ih =>
    rw [furthestEnd_concat]
    refine Nat.max_le.2 ⟨ih fun u hu => ?_, ?_⟩
    · exact h u (List.mem_append_left [t] hu)
    · exact h t (List.mem_append_right ts (List.mem_singleton_self t))

namespace Progress

variable {A : Scope} {n furthest : Nat} {ts : List Token}

/-- Between two statements a source may end. -/
theorem conclude_between : conclude (.more (.between A furthest)) = .ok A := by
  obtain ⟨r, hr⟩ := conclude_more (m := .between A furthest) rfl
  have haccepts : (Machine.between A furthest).Accepts none A := ⟨rfl, rfl, fun t ht => by cases ht⟩
  rw [haccepts.onToken_eq, Progress.done.injEq] at hr
  exact hr.1.symm

/-- What was read before makes no difference to tokens that end behind it. -/
theorem conclude_foldl_push_between (hle : furthest ≤ n) (ts : List Token) :
    ((shiftAll n ts).foldl push (.more (.between A furthest))).conclude =
      ((shiftAll n ts).foldl push (.more (.between A n))).conclude := by
  induction ts with
  | nil => rw [shiftAll_nil, List.foldl_nil, List.foldl_nil, conclude_between, conclude_between]
  | cons t ts ih =>
    rw [shiftAll_cons, List.foldl_cons, List.foldl_cons]
    cases ht : (t.shift n).isIgnorable with
    | true => rwa [push_of_ignorable ht, push_of_ignorable ht]
    | false =>
      -- from the first token on, the furthest end is that of a token of the second source
      have hstop : n ≤ (t.shift n).span.stop := Nat.le_add_left n t.span.stop
      have hnote : (Machine.between A furthest).reader.note (t.shift n) =
          (Machine.between A n).reader.note (t.shift n) := by
        show (⟨(), [], max furthest (t.shift n).span.stop, 0⟩ : Reader Unit) =
          ⟨(), [], max n (t.shift n).span.stop, 0⟩
        rw [Nat.max_eq_right hstop, Nat.max_eq_right (hle.trans hstop)]
      have habsorb : (Machine.between A furthest).absorb (t.shift n) =
          (Machine.between A n).absorb (t.shift n) := by
        rw [Machine.absorb, hnote]
        rfl
      rw [push_more ht, push_more ht, habsorb]

/-- A parse that goes on has met no failure of a scan. -/
theorem kind_ne_error_of_push {m m' : Machine Unit} {t : Token} (hm : m.reader.backlog = [])
    (h : (more m).push t = more m') : t.kind ≠ .error := by
  intro hkind
  have ht : t.isIgnorable = false := by
    rw [Token.isIgnorable, hkind]
    rfl
  -- a failure of the scan matters to the grammar, so the machine would have had to take it
  rw [push_more ht] at h
  obtain ⟨m₁, -, htakes⟩ | ⟨outcome, r, habsorb, -⟩ := Machine.absorb_cases hm t
  · exact htakes.kind_ne_error hkind
  · rw [habsorb] at h
    cases h

/-- A whole list of tokens has held no failure, if the parse still goes on. -/
theorem kind_ne_error_of_foldl_push {p : Progress Unit} (hp : p.Settled) {m' : Machine Unit}
    (h : ts.foldl push p = more m') : ∀ t ∈ ts, t.kind ≠ .error := by
  induction ts generalizing p with
  | nil =>
    intro t ht
    cases ht
  | cons t ts ih =>
    rw [List.foldl_cons] at h
    -- the parse is not over before its last token, for then it would stay over
    cases hpush : p.push t with
    | done outcome r =>
      rw [hpush, foldl_push_done] at h
      cases h
    | more m₁ =>
      have hsettled := hp.push t
      rw [hpush] at h hsettled
      intro u hu
      obtain rfl | hu := List.mem_cons.1 hu
      · cases p with
        | done outcome r => cases hpush
        | more m => exact kind_ne_error_of_push (hp m rfl) hpush
      · exact ih hsettled h u hu

/-- Tokens that parse to `A`, with no end marker among them, leave the parse between statements. -/
theorem exists_foldl_push_eq_between (hmarker : ∀ t ∈ ts, t.kind ≠ .endMarker)
    (hends : ∀ t ∈ ts, t.span.stop ≤ n) (hA : Scope.ofTokens ts = .ok A) :
    ∃ furthest, furthest ≤ n ∧ ts.foldl push start = .more (.between A furthest) := by
  rw [Scope.ofTokens_eq_conclude] at hA
  obtain ⟨m, hfold, hreached⟩ | ⟨us, t, vs, m, outcome, r, rfl, -, -, hstop, hfold⟩ :=
    Reached.start.foldl_push ts
  · have hfold : ts.foldl push start = .more m := hfold
    rw [hfold] at hA
    obtain ⟨r, hr⟩ := conclude_more hreached.backlog
    rw [hA] at hr
    obtain ⟨henclosing, hfocus, -⟩ := Machine.accepts_of_onToken hr
    -- success without an end marker: no body is open, and a statement was to begin
    have hopen : m.reader.openBodies = 0 := by
      rw [hreached.within.count, henclosing]
      rfl
    have hfurthest : m.reader.furthest ≤ n := by
      rw [hreached.furthest]
      exact furthestEnd_le fun t ht => hends t (List.mem_of_mem_filter ht)
    refine ⟨m.reader.furthest, hfurthest, ?_⟩
    have hback := hreached.backlog
    rw [hfold]
    obtain ⟨⟨supply, backlog, furthest, openBodies⟩, enclosing, focus⟩ := m
    cases hback
    cases hopen
    cases henclosing
    cases hfocus
    rfl
  · -- a parse that succeeds before its tokens end does so at an end marker
    have hdone : (us ++ t :: vs).foldl push start = .done outcome r := hfold vs
    rw [hdone] at hA
    obtain rfl : outcome = .ok A := hA
    obtain ⟨-, -, hend⟩ := Machine.accepts_of_onToken hstop
    have hmem : t ∈ us ++ t :: vs := List.mem_append_right us List.mem_cons_self
    exact absurd (hend t rfl) (hmarker t hmem)

end Progress

/-! ### Two sources -/

section Append

variable {A : Scope} {n : Nat} {ts : List Token}

/-- Tokens that parse, with no end marker among them, hold no failure of a scan. -/
theorem Scope.kind_ne_error_of_ofTokens (hmarker : ∀ t ∈ ts, t.kind ≠ .endMarker)
    (hends : ∀ t ∈ ts, t.span.stop ≤ n) (hA : Scope.ofTokens ts = .ok A) :
    ∀ t ∈ ts, t.kind ≠ .error := by
  obtain ⟨furthest, -, hfold⟩ := Progress.exists_foldl_push_eq_between hmarker hends hA
  exact Progress.kind_ne_error_of_foldl_push Progress.settled_start hfold

/-- **Tokens after a whole source** add their declarations to those of the source, or fail as they
do by themselves. -/
theorem Scope.ofTokens_append (hmarker : ∀ t ∈ ts, t.kind ≠ .endMarker)
    (hends : ∀ t ∈ ts, t.span.stop ≤ n) (hA : Scope.ofTokens ts = .ok A) (us : List Token) :
    Scope.ofTokens (ts ++ shiftAll n us) = moveResult A n (Scope.ofTokens us) := by
  obtain ⟨furthest, hle, hfold⟩ := Progress.exists_foldl_push_eq_between hmarker hends hA
  -- the second parse starts where the first has stopped, once the furthest end is out of the way
  rw [Scope.ofTokens_eq_conclude, Scope.ofTokens_eq_conclude, List.foldl_append, hfold]
  calc ((shiftAll n us).foldl Progress.push (.more (.between A furthest))).conclude
      = ((shiftAll n us).foldl Progress.push (.more (.between A n))).conclude :=
        Progress.conclude_foldl_push_between hle us
    _ = ((shiftAll n us).foldl Progress.push (Progress.start.moved A n)).conclude := by
        rw [← Machine.start_moved]
        rfl
    _ = ((us.foldl Progress.push Progress.start).moved A n).conclude := by
        rw [Progress.foldl_push_moved]
    _ = moveResult A n (us.foldl Progress.push Progress.start).conclude :=
        Progress.conclude_moved A n (Progress.settled_foldl_push Progress.settled_start us)

end Append

/-- A source that parses, without an end marker, and another one after it. -/
theorem Scope.ofSource_append_white {a b : String} {r : Char} {A : Scope} (hr : isWhite r = true)
    (hmarker : ∀ t ∈ lex a, t.kind ≠ .endMarker) (hA : Scope.ofSource a = .ok A) :
    Scope.ofSource (a ++ String.singleton r ++ b) =
      moveResult A (a.utf8ByteSize + 1) (Scope.ofSource b) := by
  rw [Scope.ofSource_eq_ofTokens] at hA
  have hends : ∀ t ∈ lex a, t.span.stop ≤ a.utf8ByteSize + 1 := fun t ht =>
    Nat.le_succ_of_le (Token.sits_of_mem_lexWith ⟨false⟩ a t ht).stop_boundary.le
  -- a source that parses was scanned without a failure
  have hclean : ∀ t ∈ lex a, t.kind ≠ .error ∧ t.kind ≠ .endMarker := fun t ht =>
    ⟨Scope.kind_ne_error_of_ofTokens hmarker hends hA t ht, hmarker t ht⟩
  rw [Scope.ofSource_eq_ofTokens, Scope.ofSource_eq_ofTokens, lex_append_white hclean hr]
  exact Scope.ofTokens_append hmarker hends hA (lex b)

/-- **Appending a source appends its declarations.** Where a source parses, and its tokens hold no
end marker, white space and another source after it add the declarations of the other source, or
fail as the other source does by itself, moved along. -/
theorem Scope.ofSource_append (a b : String) (r : Char) (A : Scope)
    (hr : r ∈ [' ', '\t', '\r', '\n']) (hmarker : ∀ t ∈ lex a, t.kind ≠ .endMarker)
    (hA : Scope.ofSource a = .ok A) :
    (∀ B, Scope.ofSource b = .ok B →
      Scope.ofSource (a ++ String.singleton r ++ b) = .ok (A ++ B)) ∧
    ∀ e, Scope.ofSource b = .error e →
      Scope.ofSource (a ++ String.singleton r ++ b) = .error (e.shift (a.utf8ByteSize + 1)) := by
  have happend : Scope.ofSource (a ++ String.singleton r ++ b) =
      moveResult A (a.utf8ByteSize + 1) (Scope.ofSource b) :=
    Scope.ofSource_append_white (isWhite_of_mem hr) hmarker hA
  refine ⟨fun B hB => ?_, fun e he => ?_⟩
  · rw [happend, hB]
    rfl
  · rw [happend, he]
    rfl

/-- A declaration after a declaration, and one that is cut off. -/
theorem Scope.ofSource_append_func :
    Scope.ofSource "func f() { }\nfunc g() { }" = .ok [.named "f", .named "g"] ∧
      Scope.ofSource "func f() { }\nfunc g" =
        .error (.expectedOpening .paren "end of input" (.point 19)) := by
  have hlex : lex "func f() { }" = [⟨.keyword .function, "func", ⟨0, 4⟩⟩,
      ⟨.identifier, "f", ⟨5, 6⟩⟩, ⟨.bracketOpen, "(", ⟨6, 7⟩⟩, ⟨.bracketClose, ")", ⟨7, 8⟩⟩,
      ⟨.bracketOpen, "\x7b", ⟨9, 10⟩⟩, ⟨.bracketClose, "\x7d", ⟨11, 12⟩⟩] := by decide +kernel
  have hmarker : ∀ t ∈ lex "func f() { }", t.kind ≠ .endMarker := by
    rw [hlex]
    decide
  have hf : Scope.ofSource "func f() { }" = .ok [.named "f"] := by
    decide +kernel
  have hg : Scope.ofSource "func g() { }" = .ok [.named "g"] := by
    decide +kernel
  have hcut : Scope.ofSource "func g" =
      .error (.expectedOpening .paren "end of input" (.point 6)) := by
    decide +kernel
  refine ⟨?_, ?_⟩
  · exact (Scope.ofSource_append "func f() { }" "func g() { }" '\n' _ (by decide) hmarker hf).1 _ hg
  · exact (Scope.ofSource_append "func f() { }" "func g" '\n' _ (by decide) hmarker hf).2 _ hcut

end DeclFront
