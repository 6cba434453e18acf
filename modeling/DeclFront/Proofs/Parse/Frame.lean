import DeclFront.Proofs.Parse.Stack
import Mathlib.Logic.Relation

/-!
# What a step of a declaration leaves as it was

A step of a declaration may read a whole body, with declarations of its own in it, and fail at any
depth of them. Seen from outside it is nevertheless all or nothing: where it fails, the declaration
is the one that was given to it, and where it succeeds, only the part that the step is about has
changed (`DeclStep.Changes`). The count of open bodies is restored in either case, and is within its
limit all the while (`Reader.step_framed`).

The count is the delicate part, since it is kept by the reader, which every body inside uses too.
`Machine.Counts` ties it to the declarations that a machine keeps open: there are as many of them as
were counted since the start. One token keeps this, and a machine that stops at it closes what it
has opened (`Machine.counts_onToken`), so a run ends with the count with which it began
(`Machine.Counts.openBodies_run`).

What happens inside a body is told by the machines that its run goes through. These are no
bystanders: the step has the outcome of each of them (`Reader.readStep_of_visits`).
-/

namespace DeclFront

variable {σ : Type}

/-! ### What a step changes -/

/-- What the step may make of the declaration `decl` where it reads `token`: the step that follows
or the failure, and the declaration that is left. -/
inductive DeclStep.Changes (token : Option Token) (decl : FunctionDecl) :
    DeclStep → Except SyntaxError (Option DeclStep) → FunctionDecl → Prop
  /-- A failure leaves nothing behind. -/
  | failed (step : DeclStep) (e : SyntaxError) : Changes token decl step (.error e) decl
  | keyword : Changes token decl .keyword (.ok (some .name))
      { decl with keyword := .keyword .function }
  | name {t : Token} (ht : token = some t) : Changes token decl .name (.ok (some .openParams))
      { decl with name := t.text }
  | openParams : Changes token decl .openParams (.ok (some .parameter)) decl
  /-- An argument is added whole, with its type, or not at all. -/
  | argument {t : Token} (ht : token = some t) (type : String) :
      Changes token decl .parameter (.ok (some .delimiter))
        { decl with arguments := decl.arguments ++ [⟨t.text, type⟩] }
  | noArgument : Changes token decl .parameter (.ok (some .closeParams)) decl
  | comma : Changes token decl .delimiter (.ok (some .parameter)) decl
  | noComma : Changes token decl .delimiter (.ok (some .closeParams)) decl
  | closeParams : Changes token decl .closeParams (.ok (some .body)) decl
  | body (body : Scope) :
      Changes token decl .body (.ok (some .closeBody)) { decl with body := body }
  | closeBody : Changes token decl .closeBody (.ok none) decl

namespace Reader

variable {r q : Reader σ} {decl decl' : FunctionDecl} {token : Option Token} {step next : DeclStep}

/-- A step that goes on has made the change that it is for. -/
theorem changes_of_goto (h : r.react decl token step = .goto next decl' q) :
    step.Changes token decl (.ok (some next)) decl' := by
  cases token with
  | none =>
    -- without a token every step fails
    cases step <;> simp [react] at h
  | some t =>
    cases step with
    | keyword =>
      simp only [react] at h
      split_ifs at h with hkind
      rw [hkind] at h
      cases h
      exact .keyword
    | name =>
      simp only [react] at h
      split_ifs at h
      cases h
      exact .name rfl
    | openParams =>
      simp only [react] at h
      split_ifs at h
      cases h
      exact .openParams
    | parameter =>
      simp only [react] at h
      split_ifs at h
      cases h
      exact .noArgument
    | delimiter =>
      simp only [react] at h
      split_ifs at h
      · cases h
        exact .comma
      · cases h
        exact .noComma
    | closeParams =>
      simp only [react] at h
      split_ifs at h
      cases h
      exact .closeParams
    -- the body and its brace are left in other ways
    | body =>
      simp only [react] at h
      split_ifs at h
    | closeBody =>
      simp only [react] at h
      split_ifs at h

/-- Only an argument waits for a type. -/
theorem eq_parameter_of_awaitType {argument : String}
    (h : r.react decl token step = .awaitType argument q) :
    step = .parameter ∧ ∃ t, token = some t ∧ t.text = argument := by
  cases step <;> simp only [react] at h <;> (repeat' split at h)
  all_goals simp at h
  exact ⟨rfl, _, rfl, h.1⟩

/-- A type completes its argument and changes nothing else. -/
theorem eq_of_reactType {argument : String} (h : r.reactType decl argument token = .ok decl') :
    ∃ type, decl' = { decl with arguments := decl.arguments ++ [⟨argument, type⟩] } := by
  unfold reactType at h
  repeat' split at h
  all_goals simp at h
  exact ⟨_, h.symm⟩

theorem eq_body_of_enterBody (h : r.react decl token step = .enterBody q) :
    step = .body ∧ r.openBodies < maxOpenBodies := by
  cases step <;> simp only [react] at h <;> (repeat' split at h)
  all_goals simp at h
  next hroom => exact ⟨rfl, hroom⟩

theorem eq_closeBody_of_finish (h : r.react decl token step = .finish q) : step = .closeBody := by
  cases step <;> simp only [react] at h <;> (repeat' split at h)
  all_goals simp at h
  rfl

/-- A statement that fails puts nothing back. -/
theorem eq_of_reactStatement_eq_fail {level : ScopeLevel} {e : SyntaxError}
    (h : r.reactStatement level token = .fail e q) : q = r := by
  unfold reactStatement at h
  repeat' split at h
  all_goals simp at h
  all_goals exact h.2.symm

/-- Nor does a declaration. -/
theorem eq_of_react_eq_fail {e : SyntaxError} (h : r.react decl token step = .fail e q) :
    q = r := by
  cases step <;> simp only [react] at h <;> (repeat' split at h)
  all_goals simp at h
  all_goals exact h.2.symm

end Reader

namespace Machine

variable {m : Machine σ} {r q : Reader σ} {token : Option Token} {level : ScopeLevel}
  {done : Scope} {e : SyntaxError}

/-- A failure at a statement closes the bodies that are open, and changes nothing else. -/
theorem eq_of_onStatement_eq_error
    (h : m.onStatement level done r token = .done (.error e) q) :
    q = r.closeBodies m.enclosing.length := by
  unfold onStatement at h
  cases hreact : r.reactStatement (m.innerLevel level) token with
  | declare q' =>
    rw [hreact] at h
    cases h
  | close q' =>
    -- the machine goes on, or stops with success
    rw [hreact] at h
    dsimp only at h
    split at h <;> cases h
  | fail e' q' =>
    rw [hreact] at h
    cases h
    rw [Reader.eq_of_reactStatement_eq_fail hreact]

/-- So does a failure inside a declaration. -/
theorem eq_of_onDeclaration_eq_error {decl : FunctionDecl} {place : DeclPlace}
    (h : m.onDeclaration done decl place r token = .done (.error e) q) :
    q = r.closeBodies m.enclosing.length := by
  unfold onDeclaration at h
  cases place with
  | argumentType argument =>
    dsimp only at h
    split at h <;> cases h
    rfl
  | step s =>
    dsimp only at h
    cases hreact : r.react decl token s with
    | fail e' q' =>
      rw [hreact] at h
      cases h
      rw [Reader.eq_of_react_eq_fail hreact]
    | _ =>
      -- the machine goes on
      rw [hreact] at h
      cases h

end Machine

/-! ### Counting open bodies -/

/-- The reader that a reaction leaves. -/
def Reaction.reader : Reaction σ → Reader σ
  | goto _ _ r | awaitType _ r | enterBody r | finish r | fail _ r => r

/-- The reader that a reaction at the start of a statement leaves. -/
def StatementReaction.reader : StatementReaction σ → Reader σ
  | declare r | close r | fail _ r => r

/-- How many bodies a reaction opens. -/
def Reaction.opened : Reaction σ → Nat
  | enterBody _ => 1
  | _ => 0

namespace Reader

variable (r : Reader σ) (decl : FunctionDecl) (token : Option Token) (step : DeclStep)

/-- At the start of a statement no body is opened or closed. -/
theorem openBodies_reactStatement (level : ScopeLevel) :
    (r.reactStatement level token).reader.openBodies = r.openBodies := by
  unfold reactStatement
  cases token with
  | none => cases level <;> rfl
  | some t =>
    dsimp only
    -- a token may be put back, which opens nothing
    split_ifs <;> rfl

/-- Inside a declaration a body is counted where it is entered. -/
theorem openBodies_react : (r.react decl token step).reader.openBodies =
    r.openBodies + (r.react decl token step).opened := by
  cases token with
  | none => cases step <;> rfl
  -- of all branches, one opens a body
  | some t => cases step <;> simp only [react, Option.any_some] <;> split_ifs <;> rfl

end Reader

/-- The machine `m` has opened its bodies on top of `base` others, and within the limit. -/
structure Machine.Counts (base : Nat) (m : Machine σ) : Prop where
  count : m.reader.openBodies = base + m.enclosing.length
  le : m.reader.openBodies ≤ maxOpenBodies

/-- Where the machine goes on, it counts on top of `base`; where it stops, it has closed whatever it
opened. -/
def Progress.Counts (base : Nat) : Progress σ → Prop
  | more m => m.Counts base
  | done _ r => r.openBodies = base

namespace Machine

variable {base : Nat} {m m' n : Machine σ} {r q : Reader σ}

theorem counts_start (hle : r.openBodies ≤ maxOpenBodies) : (start r).Counts r.openBodies :=
  ⟨rfl, hle⟩

/-- A move within the same body. -/
theorem counts_within (hcount : r.openBodies = base + m.enclosing.length)
    (hle : r.openBodies ≤ maxOpenBodies) (hq : q.openBodies = r.openBodies) (focus : Focus) :
    Counts base ⟨q, m.enclosing, focus⟩ :=
  ⟨hq.trans hcount, Nat.le_trans (Nat.le_of_eq hq) hle⟩

/-- A failure closes the bodies that are open. -/
theorem counts_abandon (hcount : r.openBodies = base + m.enclosing.length)
    (hq : q.openBodies = r.openBodies) (e : SyntaxError) : (m.abandon e q).Counts base := by
  show q.openBodies - m.enclosing.length = base
  omega

theorem counts_onStatement (hcount : r.openBodies = base + m.enclosing.length)
    (hle : r.openBodies ≤ maxOpenBodies) (level : ScopeLevel) (done : Scope)
    (token : Option Token) : (m.onStatement level done r token).Counts base := by
  have hsame := r.openBodies_reactStatement token (m.innerLevel level)
  unfold onStatement
  cases hreact : r.reactStatement (m.innerLevel level) token with
  | declare q =>
    rw [hreact] at hsame
    exact counts_within hcount hle hsame _
  | fail e q =>
    rw [hreact] at hsame
    exact counts_abandon hcount hsame e
  | close q =>
    rw [hreact] at hsame
    have hq : q.openBodies = r.openBodies := hsame
    cases henclosing : m.enclosing with
    | nil =>
      rw [henclosing] at hcount
      exact hq.trans hcount
    | cons outer enclosing =>
      -- the innermost body is closed, and its declaration leaves the stack
      rw [henclosing, List.length_cons] at hcount
      constructor
      · show q.openBodies - 1 = base + enclosing.length
        omega
      · show q.openBodies - 1 ≤ maxOpenBodies
        omega

theorem counts_onDeclaration (hcount : r.openBodies = base + m.enclosing.length)
    (hle : r.openBodies ≤ maxOpenBodies) (done : Scope) (decl : FunctionDecl) (place : DeclPlace)
    (token : Option Token) : (m.onDeclaration done decl place r token).Counts base := by
  unfold onDeclaration
  cases place with
  | argumentType argument =>
    dsimp only
    cases r.reactType decl argument token with
    | ok decl' => exact counts_within hcount hle rfl _
    | error e => exact counts_abandon hcount rfl e
  | step s =>
    have hsum := r.openBodies_react decl token s
    dsimp only
    -- four reactions stay in the body that is open, and one opens a further one
    cases hreact : r.react decl token s with
    | goto next decl' q =>
      rw [hreact] at hsum
      exact counts_within hcount hle hsum _
    | awaitType argument q =>
      rw [hreact] at hsum
      exact counts_within hcount hle hsum _
    | finish q =>
      rw [hreact] at hsum
      exact counts_within hcount hle hsum _
    | fail e q =>
      rw [hreact] at hsum
      exact counts_abandon hcount hsum e
    | enterBody q =>
      -- the one reaction that opens a body, for which there is room
      obtain ⟨-, hroom⟩ := Reader.eq_body_of_enterBody hreact
      rw [hreact] at hsum
      have hq : q.openBodies = r.openBodies + 1 := hsum
      constructor
      · show q.openBodies = base + (m.enclosing.length + 1)
        omega
      · show q.openBodies ≤ maxOpenBodies
        omega

/-- **A token keeps the count**, whatever it leads to. -/
theorem counts_onToken (hcount : r.openBodies = base + m.enclosing.length)
    (hle : r.openBodies ≤ maxOpenBodies) (level : ScopeLevel) (token : Option Token) :
    (m.onToken level r token).Counts base := by
  unfold onToken
  cases m.focus with
  | statement done => exact counts_onStatement hcount hle level done token
  | declaration done decl place => exact counts_onDeclaration hcount hle done decl place token

end Machine

/-! ### Runs -/

variable [TokenSupply σ]

/-- To read a token counts no body. -/
theorem Reader.openBodies_next (r : Reader σ) : r.next.2.openBodies = r.openBodies := by
  fun_induction Reader.next r with
  | case1 r hdraw => rfl
  | case2 r t r' hdraw _ hignorable ih =>
    obtain ⟨-, -, hopen⟩ := contents_of_draw? hdraw
    rw [ih, hopen]
  | case3 r t r' hdraw _ hkept =>
    obtain ⟨-, -, hopen⟩ := contents_of_draw? hdraw
    exact hopen

namespace Machine

variable {base : Nat} {m n : Machine σ} {level : ScopeLevel}

theorem Counts.step (h : m.Counts base) (level : ScopeLevel) : (m.step level).Counts base := by
  have hsame := m.reader.openBodies_next
  exact counts_onToken (hsame.trans h.count) (Nat.le_trans (Nat.le_of_eq hsame) h.le) level _

/-- **A run ends with the count with which it began**, however it ends. -/
theorem Counts.openBodies_run (h : m.Counts base) (level : ScopeLevel) :
    (m.run level).2.openBodies = base := by
  -- along the run; its last step has closed what was open
  fun_induction run m level with
  | case1 m m' hstep _ ih =>
    have hcounts := h.step level
    rw [hstep] at hcounts
    exact ih hcounts
  | case2 m outcome r hstep =>
    have hcounts := h.step level
    rw [hstep] at hcounts
    exact hcounts

/-- The run of `m` goes through `n`. -/
def Visits (level : ScopeLevel) : Machine σ → Machine σ → Prop :=
  Relation.ReflTransGen fun m n => m.step level = .more n

/-- Whatever machine a run goes through, the rest of the run is the run of that machine. -/
theorem Visits.run_eq (h : Visits level m n) : m.run level = n.run level := by
  induction h with
  | refl => rfl
  | tail _ hstep ih => rw [ih, run_of_step_eq_more hstep]

/-- **The count is right all the while.** -/
theorem Counts.visits (h : m.Counts base) (hvisits : Visits level m n) : n.Counts base := by
  induction hvisits with
  | refl => exact h
  | tail _ hstep ih =>
    have hcounts := ih.step level
    rw [hstep] at hcounts
    exact hcounts

end Machine

/-! ### One step -/

namespace Reader

variable {r q : Reader σ} {decl : FunctionDecl} {step : DeclStep}

/-- The readers that there are while the step is run, from the one that it is given to the one that
it leaves. Inside a body, those of each machine and of the token that it reads count as well. -/
inductive Passes (r : Reader σ) (decl : FunctionDecl) (step : DeclStep) : Reader σ → Prop
  | given : Passes r decl step r
  | token : Passes r decl step r.next.2
  | reacted : Passes r decl step (r.next.2.react decl r.next.1 step).reader
  | typeToken {argument : String} {q : Reader σ}
      (await : r.next.2.react decl r.next.1 step = .awaitType argument q) :
      Passes r decl step q.next.2
  | inBody {q : Reader σ} {m : Machine σ} (enter : r.next.2.react decl r.next.1 step = .enterBody q)
      (visits : Machine.Visits .body (.start q) m) : Passes r decl step m.reader
  | tokenInBody {q : Reader σ} {m : Machine σ}
      (enter : r.next.2.react decl r.next.1 step = .enterBody q)
      (visits : Machine.Visits .body (.start q) m) : Passes r decl step m.reader.next.2
  /-- A body is counted until it was read, whether it was read to its end or failed. -/
  | afterBody {q : Reader σ} (enter : r.next.2.react decl r.next.1 step = .enterBody q) :
      Passes r decl step (q.readScope .body).2
  | left : Passes r decl step (r.readStep decl step).reader

/-- What the step that reads the body of `decl` makes of the outcome of that body. -/
def bodyOutcome (decl : FunctionDecl) : Except SyntaxError Scope × Reader σ → StepOutcome σ
  | (.ok body, q) => ⟨.ok (some .closeBody), { decl with body := body }, q.closeBodies 1⟩
  | (.error e, q) => ⟨.error e, decl, q.closeBodies 1⟩

theorem readBody_eq (q : Reader σ) (decl : FunctionDecl) :
    q.readBody decl = bodyOutcome decl (q.readScope .body) := by
  unfold readBody
  cases q.readScope .body with
  | mk outcome q' => cases outcome <;> rfl

/-- A step that enters a body reads it. -/
theorem readStep_of_enterBody (h : r.next.2.react decl r.next.1 step = .enterBody q) :
    r.readStep decl step = bodyOutcome decl (q.readScope .body) := by
  rw [← readBody_eq]
  unfold readStep
  dsimp only
  rw [h]

/-- **Every machine that reads the body** has the outcome that the step uses. -/
theorem readStep_of_visits {m : Machine σ}
    (enter : r.next.2.react decl r.next.1 step = .enterBody q)
    (visits : Machine.Visits .body (.start q) m) :
    r.readStep decl step = bodyOutcome decl (m.run .body) := by
  rw [readStep_of_enterBody enter, ← visits.run_eq]
  rfl

/-- The reader that enters a body after a token of `r`. -/
theorem openBodies_of_enterBody (h : r.next.2.react decl r.next.1 step = .enterBody q) :
    q.openBodies = r.openBodies + 1 ∧ q.openBodies ≤ maxOpenBodies := by
  obtain ⟨-, hroom⟩ := eq_body_of_enterBody h
  have hsum := r.next.2.openBodies_react decl r.next.1 step
  rw [h, openBodies_next] at hsum
  rw [openBodies_next] at hroom
  have hq : q.openBodies = r.openBodies + 1 := hsum
  exact ⟨hq, by omega⟩

/-- A scope that was read has closed the bodies that it opened. -/
theorem openBodies_readScope (hle : q.openBodies ≤ maxOpenBodies) (level : ScopeLevel) :
    (q.readScope level).2.openBodies = q.openBodies :=
  (Machine.counts_start hle).openBodies_run level

/-- While a body is read, as many bodies are open as the machine keeps, and those around it. -/
theorem openBodies_of_visits {m : Machine σ}
    (enter : r.next.2.react decl r.next.1 step = .enterBody q)
    (visits : Machine.Visits .body (.start q) m) :
    r.openBodies ≤ m.reader.openBodies ∧ m.reader.openBodies ≤ maxOpenBodies := by
  obtain ⟨hq, hroom⟩ := openBodies_of_enterBody enter
  have hcounts := (Machine.counts_start hroom).visits visits
  have hcount := hcounts.count
  exact ⟨by omega, hcounts.le⟩

/-- **A step restores the count** of open bodies, where it succeeds and where it fails. -/
theorem openBodies_readStep (r : Reader σ) (decl : FunctionDecl) (step : DeclStep) :
    (r.readStep decl step).reader.openBodies = r.openBodies := by
  have hsum := r.next.2.openBodies_react decl r.next.1 step
  rw [openBodies_next] at hsum
  unfold readStep
  dsimp only
  cases hreact : r.next.2.react decl r.next.1 step with
  | goto next decl' q =>
    rw [hreact] at hsum
    exact hsum
  | finish q =>
    rw [hreact] at hsum
    exact hsum
  | fail e q =>
    rw [hreact] at hsum
    exact hsum
  | awaitType argument q =>
    -- the type is one more token
    rw [hreact] at hsum
    have hq : q.openBodies = r.openBodies := hsum
    rw [← hq, ← openBodies_next q]
    show (q.readType decl argument).reader.openBodies = q.next.2.openBodies
    unfold readType
    dsimp only
    cases q.next.2.reactType decl argument q.next.1 <;> rfl
  | enterBody q =>
    obtain ⟨hq, hle⟩ := openBodies_of_enterBody hreact
    have hrun := openBodies_readScope hle .body
    show (q.readBody decl).reader.openBodies = r.openBodies
    rw [readBody_eq]
    cases hread : q.readScope .body with
    | mk outcome q' =>
      rw [hread] at hrun
      have hq' : q'.openBodies = q.openBodies := hrun
      -- the body is counted no longer, whether it was read to its end or not
      cases outcome with
      | ok body =>
        show q'.openBodies - 1 = r.openBodies
        omega
      | error e =>
        show q'.openBodies - 1 = r.openBodies
        omega

/-- While a step is run, no more bodies are open than may be, and no fewer than before. -/
theorem Passes.openBodies_le (h : r.Passes decl step q) (hle : r.openBodies ≤ maxOpenBodies) :
    r.openBodies ≤ q.openBodies ∧ q.openBodies ≤ maxOpenBodies := by
  have hsum := r.next.2.openBodies_react decl r.next.1 step
  rw [openBodies_next] at hsum
  -- outside a body the count is that of `r`; inside, it starts at one more, for which there is room
  cases h with
  | given => exact ⟨Nat.le_refl _, hle⟩
  | token => rw [openBodies_next]; exact ⟨Nat.le_refl _, hle⟩
  | left => rw [openBodies_readStep]; exact ⟨Nat.le_refl _, hle⟩
  | reacted =>
    cases hreact : r.next.2.react decl r.next.1 step with
    | enterBody q =>
      obtain ⟨hq, hroom⟩ := openBodies_of_enterBody hreact
      exact ⟨by rw [Reaction.reader]; omega, hroom⟩
    | _ =>
      rw [hreact] at hsum
      exact ⟨Nat.le_of_eq hsum.symm, Nat.le_trans (Nat.le_of_eq hsum) hle⟩
  | typeToken await =>
    rw [await] at hsum
    rw [openBodies_next]
    exact ⟨Nat.le_of_eq hsum.symm, Nat.le_trans (Nat.le_of_eq hsum) hle⟩
  | inBody enter visits =>
    exact openBodies_of_visits enter visits
  | tokenInBody enter visits =>
    rw [openBodies_next]
    exact openBodies_of_visits enter visits
  | afterBody enter =>
    obtain ⟨hq, hroom⟩ := openBodies_of_enterBody enter
    rw [openBodies_readScope hroom]
    exact ⟨by omega, hroom⟩

/-- **A step makes its own change or none.** -/
theorem changes_readStep (r : Reader σ) (decl : FunctionDecl) (step : DeclStep) :
    step.Changes r.next.1 decl (r.readStep decl step).next (r.readStep decl step).decl := by
  unfold readStep
  dsimp only
  cases hreact : r.next.2.react decl r.next.1 step with
  | goto next decl' q => exact changes_of_goto hreact
  | fail e q => exact .failed step e
  | finish q =>
    obtain rfl := eq_closeBody_of_finish hreact
    exact .closeBody
  | awaitType argument q =>
    obtain ⟨rfl, t, ht, rfl⟩ := eq_parameter_of_awaitType hreact
    show DeclStep.Changes _ decl .parameter (q.readType decl t.text).next
      (q.readType decl t.text).decl
    unfold readType
    dsimp only
    cases htype : q.next.2.reactType decl t.text q.next.1 with
    | error e => exact .failed .parameter e
    | ok decl' =>
      obtain ⟨type, rfl⟩ := eq_of_reactType htype
      exact .argument ht type
  | enterBody q =>
    obtain ⟨rfl, -⟩ := eq_body_of_enterBody hreact
    -- whatever was read in it, the declaration gets its body as a whole or not at all
    show DeclStep.Changes _ decl .body (q.readBody decl).next (q.readBody decl).decl
    unfold readBody
    cases q.readScope .body with
    | mk outcome q' =>
      cases outcome with
      | ok body => exact .body body
      | error e => exact .failed .body e

end Reader

/-! ### Any step of any parser -/

/-- What can be asked of a parser: a token, or a step of a declaration. -/
inductive ParserCall where
  | token (call : TokenCall)
  | step (decl : FunctionDecl) (step : DeclStep)

namespace Reader

/-- The reader that a call leaves. -/
def afterCall (r : Reader σ) : ParserCall → Reader σ
  | .token call => (call.onReader r).2
  | .step decl step => (r.readStep decl step).reader

/-- No call leaves a body open. -/
theorem openBodies_afterCall (r : Reader σ) (call : ParserCall) :
    (r.afterCall call).openBodies = r.openBodies := by
  cases call with
  | step decl step => exact openBodies_readStep r decl step
  | token call =>
    have hnext := r.openBodies_next
    cases call with
    | next => exact hnext
    | putBack t => rfl
    -- to look at a token is to read it and to put it back
    | peek =>
      show r.peek.2.openBodies = r.openBodies
      unfold peek
      cases hread : r.next with
      | mk token r' =>
        rw [hread] at hnext
        cases token <;> exact hnext

theorem openBodies_foldl_afterCall (r : Reader σ) (calls : List ParserCall) :
    (calls.foldl afterCall r).openBodies = r.openBodies := by
  induction calls generalizing r with
  | nil => rfl
  | cons call calls ih => rw [List.foldl_cons, ih, openBodies_afterCall]

/-- Running the step on the declaration `decl` changes nothing that is not its own. -/
structure Framed (r : Reader σ) (decl : FunctionDecl) (step : DeclStep) : Prop where
  /-- The count of open bodies is restored, on success and on failure. -/
  restored : (r.readStep decl step).reader.openBodies = r.openBodies
  /-- At no time are more bodies open than may be. -/
  bounded : ∀ q, r.Passes decl step q → q.openBodies ≤ maxOpenBodies
  /-- The machines among which the body is read are those that the step runs: each of them has the
  outcome that the step uses. -/
  tied : ∀ q m, r.next.2.react decl r.next.1 step = .enterBody q →
    Machine.Visits .body (.start q) m → r.readStep decl step = bodyOutcome decl (m.run .body)
  /-- The declaration is as it was, or only what the step is about has changed. -/
  changes : step.Changes r.next.1 decl (r.readStep decl step).next (r.readStep decl step).decl

/-- **A step of a declaration is all or nothing.** Whatever has been asked of a parser before, a
step leaves the count of open bodies as it was and exceeds its limit at no time. Where it fails the
declaration is unchanged, and where it succeeds it has changed only as the step is meant to. -/
theorem step_framed (supply : σ) (calls : List ParserCall) (decl : FunctionDecl)
    (step : DeclStep) : (calls.foldl afterCall (ofSupply supply)).Framed decl step := by
  have hopen : (calls.foldl afterCall (ofSupply supply)).openBodies = 0 :=
    openBodies_foldl_afterCall _ calls
  constructor
  · exact openBodies_readStep _ decl step
  · intro q hq
    exact (hq.openBodies_le (by rw [hopen]; exact Nat.zero_le _)).2
  · intro q m enter visits
    exact readStep_of_visits enter visits
  · exact changes_readStep _ decl step

/-- A body with a declaration in it is read whole, and no body is open behind it. -/
example :
    let tokens : List Token :=
      [⟨.bracketOpen, "\x7b", ⟨0, 1⟩⟩, ⟨.keyword .function, "func", ⟨1, 5⟩⟩,
        ⟨.identifier, "g", ⟨6, 7⟩⟩, ⟨.bracketOpen, "(", ⟨7, 8⟩⟩, ⟨.bracketClose, ")", ⟨8, 9⟩⟩,
        ⟨.bracketOpen, "\x7b", ⟨9, 10⟩⟩, ⟨.bracketClose, "\x7d", ⟨10, 11⟩⟩,
        ⟨.bracketClose, "\x7d", ⟨11, 12⟩⟩]
    let outcome := (ofSupply tokens).readStep (.named "f") .body
    outcome.next.toOption = some (some .closeBody) ∧ outcome.reader.openBodies = 0 ∧
      outcome.decl = { FunctionDecl.named "f" with body := [.named "g"] } := by
  decide +kernel

end Reader

end DeclFront
