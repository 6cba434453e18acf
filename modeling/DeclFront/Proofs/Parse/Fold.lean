import DeclFront.Parse.Scope
import DeclFront.Proofs.Parse.Move

/-!
# A parse as a fold over its tokens

A parser asks its supply for tokens, so its loop interleaves two activities: drawing tokens and
reacting to them. They are independent. No reaction looks at the supply (`onToken_withSupply`), and
a token that was put back is read again before the next one is drawn. Hence a parse can be turned
inside out: a state `Progress Unit`, which holds no supply at all, takes the tokens one by one.

* `Progress.push` lets such a state take one token, of any kind;
* `Progress.conclude` tells it that no token is left;
* `readSource_eq_conclude` says that reading a supply amounts to pushing all its tokens;
* `foldl_push_cases` says how far that gets: the machine takes all of them, or stops at one.

The result of a parse is thereby a function of the list of tokens, whatever supplies them
(`Scope.ofScan_eq_ofTokens`), and once it is decided the tokens that follow cannot change it
(`foldl_push_done`).
-/

namespace DeclFront

/-! ### The tokens of a supply -/

namespace TokenSupply

variable {σ : Type} [TokenSupply σ]

/-- All tokens of a supply, in order. -/
def tokens (s : σ) : List Token :=
  match h : next? s with
  | none => []
  | some (t, s') =>
    have _lt := remaining_lt h
    t :: tokens s'
termination_by remaining s

theorem tokens_of_next?_eq_none {s : σ} (h : next? s = none) : tokens s = [] := by
  rw [tokens]
  split
  · rfl
  · next heq => rw [h] at heq; cases heq

theorem tokens_of_next?_eq_some {s s' : σ} {t : Token} (h : next? s = some (t, s')) :
    tokens s = t :: tokens s' := by
  rw [tokens]
  split
  · next heq => rw [h] at heq; cases heq
  · next heq => rw [h] at heq; cases heq; rfl

/-- A list supplies itself. -/
@[simp] theorem tokens_list (ts : List Token) : tokens ts = ts := by
  induction ts with
  | nil => exact tokens_of_next?_eq_none rfl
  | cons t ts ih =>
    have hnext : TokenSupply.next? (t :: ts) = some (t, ts) := rfl
    rw [tokens_of_next?_eq_some hnext, ih]

/-- A process supplies what it offers. -/
@[simp] theorem tokens_emitter {α : Type} (e : Emitter α) : tokens e = e.tokens := by
  induction e with
  | halt a => exact tokens_of_next?_eq_none rfl
  | offer t resume ih =>
    have hnext : TokenSupply.next? (Emitter.offer t resume) = some (t, resume true) := rfl
    rw [tokens_of_next?_eq_some hnext, ih, Emitter.tokens]

/-- The supply that is dry from the start. -/
instance instUnit : TokenSupply Unit where
  next? _ := none
  remaining _ := 0
  remaining_lt h := by cases h

end TokenSupply

/-! ### Exchanging the supply -/

section WithSupply

variable {σ τ : Type}

/-- The reader with another supply behind the tokens put back. -/
def Reader.withSupply (r : Reader σ) (supply : τ) : Reader τ :=
  ⟨supply, r.backlog, r.furthest, r.openBodies⟩

/-- The machine with another supply. -/
def Machine.withSupply (m : Machine σ) (supply : τ) : Machine τ :=
  ⟨m.reader.withSupply supply, m.enclosing, m.focus⟩

/-- The reaction with another supply. -/
def Reaction.withSupply (supply : τ) : Reaction σ → Reaction τ
  | goto next decl r => goto next decl (r.withSupply supply)
  | awaitType argument r => awaitType argument (r.withSupply supply)
  | enterBody r => enterBody (r.withSupply supply)
  | finish r => finish (r.withSupply supply)
  | fail error r => fail error (r.withSupply supply)

/-- The reaction at a statement, with another supply. -/
def StatementReaction.withSupply (supply : τ) : StatementReaction σ → StatementReaction τ
  | declare r => declare (r.withSupply supply)
  | close r => close (r.withSupply supply)
  | fail error r => fail error (r.withSupply supply)

/-- The outcome of a step, with another supply. -/
def Progress.withSupply (supply : τ) : Progress σ → Progress τ
  | more m => more (m.withSupply supply)
  | done outcome r => done outcome (r.withSupply supply)

namespace Reader

variable (r : Reader σ) (supply : τ)

theorem reactStatement_withSupply (level : ScopeLevel) (token : Option Token) :
    (r.withSupply supply).reactStatement level token =
      (r.reactStatement level token).withSupply supply := by
  cases token with
  | none => cases level <;> rfl
  | some t =>
    unfold reactStatement
    dsimp only
    split_ifs <;> rfl

theorem react_withSupply (decl : FunctionDecl) (token : Option Token) (s : DeclStep) :
    (r.withSupply supply).react decl token s = (r.react decl token s).withSupply supply := by
  cases token with
  | none => cases s <;> rfl
  | some t =>
    have hopen : (r.withSupply supply).openBodies = r.openBodies := rfl
    -- every test of a step is about the token or the count of open bodies
    cases s <;> simp only [react, Option.any_some, hopen] <;> split_ifs <;> rfl

theorem reactType_withSupply (decl : FunctionDecl) (argument : String) (token : Option Token) :
    (r.withSupply supply).reactType decl argument token = r.reactType decl argument token := by
  cases token <;> rfl

end Reader

namespace Machine

variable (m : Machine σ) (supply : τ)

@[simp] theorem withSupply_reader : (m.withSupply supply).reader = m.reader.withSupply supply := rfl

@[simp] theorem withSupply_enclosing : (m.withSupply supply).enclosing = m.enclosing := rfl

@[simp] theorem withSupply_focus : (m.withSupply supply).focus = m.focus := rfl

@[simp] theorem withSupply_innerLevel (level : ScopeLevel) :
    (m.withSupply supply).innerLevel level = m.innerLevel level := rfl

/-- No reaction looks at the supply. -/
theorem onToken_withSupply (r : Reader σ) (token : Option Token) :
    (m.withSupply supply).onToken .unit (r.withSupply supply) token =
      (m.onToken .unit r token).withSupply supply := by
  -- what a reaction depends on is the same on both sides, so it is the same reaction
  simp only [onToken, withSupply_focus]
  cases m.focus with
  | statement done =>
    simp only [onStatement, withSupply_innerLevel, Reader.reactStatement_withSupply]
    cases r.reactStatement (m.innerLevel .unit) token with
    | declare q => rfl
    | close q =>
      simp only [StatementReaction.withSupply, withSupply_enclosing]
      cases m.enclosing <;> rfl
    | fail error q => rfl
  | declaration done decl place =>
    cases place with
    | argumentType argument =>
      simp only [onDeclaration, Reader.reactType_withSupply]
      cases r.reactType decl argument token <;> rfl
    | step s =>
      simp only [onDeclaration, Reader.react_withSupply]
      cases r.react decl token s <;> rfl

end Machine

end WithSupply

/-! ### Taking tokens one at a time -/

namespace Machine

/-- Read the token that was put back, if there is one. -/
def reread (m : Machine Unit) : Progress Unit :=
  match m.reader.backlog with
  | [] => .more m
  | t :: backlog => m.onToken .unit (Reader.note { m.reader with backlog } t) (some t)

/-- Take a token that matters to the grammar. -/
def absorb (m : Machine Unit) (t : Token) : Progress Unit :=
  match m.onToken .unit (m.reader.note t) (some t) with
  | .more m' => m'.reread
  | .done outcome r => .done outcome r

end Machine

namespace Progress

/-- Take a token. What is over stays as it is, and what the grammar ignores changes nothing. -/
def push (p : Progress Unit) (t : Token) : Progress Unit :=
  match p with
  | .more m => if t.isIgnorable then .more m else m.absorb t
  | .done outcome r => .done outcome r

/-- The result of a parse whose remaining tokens come from `supply`. -/
def runWith {σ : Type} [TokenSupply σ] (p : Progress Unit) (supply : σ) :
    Except SyntaxError Scope :=
  match p with
  | .more m => ((m.withSupply supply).run .unit).1
  | .done outcome _ => outcome

/-- The result of a parse for which no token is left. -/
def conclude (p : Progress Unit) : Except SyntaxError Scope :=
  p.runWith ()

/-- No token waits to be read again. -/
def Settled (p : Progress Unit) : Prop :=
  ∀ m, p = .more m → m.reader.backlog = []

/-- A parse of which nothing was read. -/
def start : Progress Unit :=
  .more (Machine.start (Reader.ofSupply ()))

end Progress

namespace Machine

variable {σ : Type} [TokenSupply σ] {m : Machine Unit} {t : Token} {supply supply' : σ}
  {level : ScopeLevel}

/-- A run goes on where its first step does. -/
theorem run_of_step_eq_more {m m' : Machine σ} (h : m.step level = .more m') :
    m.run level = m'.run level := by
  rw [run]
  split
  · next heq => rw [h] at heq; cases heq; rfl
  · next heq => rw [h] at heq; cases heq

/-- A run is over where its first step is. -/
theorem run_of_step_eq_done {m : Machine σ} {outcome : Except SyntaxError Scope} {r : Reader σ}
    (h : m.step level = .done outcome r) : m.run level = (outcome, r) := by
  rw [run]
  split
  · next heq => rw [h] at heq; cases heq
  · next heq => rw [h] at heq; cases heq; rfl

/-- A step decides how the run goes on. -/
theorem run_of_step_eq {p : Progress Unit}
    (h : (m.withSupply supply).step .unit = p.withSupply supply') :
    ((m.withSupply supply).run .unit).1 = p.runWith supply' := by
  cases p with
  | more m' => rw [run_of_step_eq_more h]; rfl
  | done outcome r => rw [run_of_step_eq_done h]; rfl

end Machine

namespace Reader

variable {σ : Type} [TokenSupply σ] {r : Reader Unit} {t : Token} {supply supply' : σ}

/-- With nothing put back and the supply dry, nothing is read. -/
theorem next_of_dry (hr : r.backlog = []) (hs : TokenSupply.next? supply = none) :
    (r.withSupply supply).next = (none, r.withSupply supply) := by
  have hd : (r.withSupply supply).draw? = none := by
    simp only [draw?, withSupply, hr, hs]
  rw [next]
  split
  · rfl
  · next heq => rw [hd] at heq; cases heq

/-- With nothing put back, the supply is asked. -/
theorem next_of_supply (hr : r.backlog = [])
    (hs : TokenSupply.next? supply = some (t, supply')) :
    (r.withSupply supply).next =
      if t.isIgnorable then (r.withSupply supply').next
      else (some t, (r.note t).withSupply supply') := by
  have hd : (r.withSupply supply).draw? = some (t, r.withSupply supply') := by
    simp only [draw?, withSupply, hr, hs]
  rw [next]
  split
  · next heq => rw [hd] at heq; cases heq
  · next heq => rw [hd] at heq; cases heq; rfl

/-- A token put back is read first. -/
theorem next_of_backlog {backlog : List Token} (hr : r.backlog = t :: backlog)
    (ht : t.isIgnorable = false) :
    (r.withSupply supply).next = (some t, (note { r with backlog } t).withSupply supply) := by
  have hd : (r.withSupply supply).draw? =
      some (t, Reader.withSupply { r with backlog } supply) := by
    simp only [draw?, withSupply, hr]
  rw [next]
  split
  · next heq => rw [hd] at heq; cases heq
  · next heq => rw [hd] at heq; cases heq; simp only [ht]; rfl

end Reader

namespace Machine

variable {σ : Type} [TokenSupply σ] {m : Machine Unit} {t : Token} {supply supply' : σ}

theorem reread_of_nil (h : m.reader.backlog = []) : m.reread = .more m := by
  unfold reread
  split
  · rfl
  · next heq => rw [h] at heq; cases heq

/-- A machine takes a token by one move, or by two if the token is put back and read again. -/
inductive Takes (m : Machine Unit) (t : Token) : Machine Unit → Prop
  | once {m' : Machine Unit} (move : Move (m.reader.note t) t m.enclosing m.focus m')
      (hback : m'.reader.backlog = []) : Takes m t m'
  | again {m₁ m' : Machine Unit} (first : Move (m.reader.note t) t m.enclosing m.focus m₁)
      (hback : m₁.reader.backlog = [t])
      (second : Move (Reader.note { m₁.reader with backlog := [] } t) t m₁.enclosing m₁.focus m')
      (hreader : m'.reader = Reader.note { m₁.reader with backlog := [] } t) : Takes m t m'

/-- What a token leads to: the machine takes it, or stops at the first reading. -/
theorem absorb_cases (hm : m.reader.backlog = []) (t : Token) :
    (∃ m', m.absorb t = .more m' ∧ m.Takes t m') ∨
      ∃ outcome r, m.absorb t = .done outcome r ∧
        m.onToken .unit (m.reader.note t) (some t) = .done outcome r := by
  unfold absorb
  cases hfirst : m.onToken .unit (m.reader.note t) (some t) with
  | done outcome r => exact .inr ⟨outcome, r, rfl, rfl⟩
  | more m₁ =>
    have first := move_of_onToken hfirst
    refine .inl ?_
    obtain hb | ⟨hb, -, -⟩ := first.backlog_eq
    · -- the token was kept
      have hb₁ : m₁.reader.backlog = [] := hb.trans hm
      exact ⟨m₁, reread_of_nil hb₁, .once first hb₁⟩
    · -- the token was put back; at its second reading it fits
      have hb₁ : m₁.reader.backlog = [t] := by rw [hb, Reader.backlog_note, hm]
      obtain ⟨m₂, second, hreader⟩ := first.exists_again hb _
      refine ⟨m₂, ?_, .again first hb₁ second hreader⟩
      unfold reread
      dsimp only
      rw [hb₁]
      exact second.onToken_eq

/-- After a token was taken, none waits to be read again. -/
theorem Takes.backlog_eq_nil {m' : Machine Unit} (h : m.Takes t m') : m'.reader.backlog = [] := by
  cases h with
  | once move hback => exact hback
  | again first hback second hreader => rw [hreader]; rfl

theorem settled_absorb (hm : m.reader.backlog = []) (t : Token) : (m.absorb t).Settled := by
  intro m' h
  -- a machine that goes on has taken the token
  obtain ⟨m₁, habs, htakes⟩ | ⟨outcome, r, habs, -⟩ := absorb_cases hm t
  · rw [habs] at h
    cases h
    exact htakes.backlog_eq_nil
  · rw [habs] at h
    cases h

/-- What every move keeps, taking a token keeps. -/
theorem Takes.invariant {m' : Machine Unit} {I : List OpenDecl → Focus → Nat → Prop}
    (hI : ∀ (r : Reader Unit) enclosing focus m₁, Move r t enclosing focus m₁ →
      I enclosing focus r.openBodies → I m₁.enclosing m₁.focus m₁.reader.openBodies)
    (h : m.Takes t m') (hm : I m.enclosing m.focus m.reader.openBodies) :
    I m'.enclosing m'.focus m'.reader.openBodies := by
  cases h with
  | once move hback => exact hI _ _ _ _ move hm
  | again first hback second hreader => exact hI _ _ _ _ second (hI _ _ _ _ first hm)

/-- The machine takes the tokens, one after another. -/
inductive TakesAll : Machine Unit → List Token → Machine Unit → Prop
  | nil (m : Machine Unit) : TakesAll m [] m
  | cons {m m₁ m' : Machine Unit} {t : Token} {ts : List Token} (first : m.Takes t m₁)
      (rest : TakesAll m₁ ts m') : TakesAll m (t :: ts) m'

/-- What taking one token keeps, along the tokens taken so far, taking many keeps. -/
theorem TakesAll.invariant {I : List Token → Machine Unit → Prop}
    (hI : ∀ before m t m', I before m → m.Takes t m' → I (before ++ [t]) m')
    {m m' : Machine Unit} {before ts : List Token} (h : m.TakesAll ts m') (hm : I before m) :
    I (before ++ ts) m' := by
  induction h generalizing before with
  | nil => rwa [List.append_nil]
  | cons first _ ih =>
    rw [List.append_cons]
    exact ih (hI _ _ _ _ hm first)

/-- A run over a dry supply ends at once. -/
theorem run_of_dry (hm : m.reader.backlog = []) (hs : TokenSupply.next? supply = none) :
    ((m.withSupply supply).run .unit).1 = (m.onToken .unit m.reader none).runWith supply := by
  apply run_of_step_eq
  rw [step, withSupply_reader, Reader.next_of_dry hm hs]
  exact onToken_withSupply m supply m.reader none

/-- A step skips what the grammar ignores. -/
theorem step_of_ignorable (hm : m.reader.backlog = [])
    (hs : TokenSupply.next? supply = some (t, supply')) (ht : t.isIgnorable = true) :
    (m.withSupply supply).reader.next = (m.withSupply supply').reader.next ∧
      (m.withSupply supply).step .unit = (m.withSupply supply').step .unit := by
  -- the token is skipped inside one reading, so both machines take the same step
  have hnext : (m.reader.withSupply supply).next = (m.reader.withSupply supply').next := by
    rw [Reader.next_of_supply hm hs, if_pos ht]
  refine ⟨hnext, ?_⟩
  rw [step, step, withSupply_reader, withSupply_reader, hnext]
  rfl

/-- A step over a supply that gives out `t` reads `t`. -/
theorem step_of_token (hm : m.reader.backlog = [])
    (hs : TokenSupply.next? supply = some (t, supply')) (ht : t.isIgnorable = false) :
    (m.withSupply supply).step .unit =
      (m.onToken .unit (m.reader.note t) (some t)).withSupply supply' := by
  rw [step, withSupply_reader, Reader.next_of_supply hm hs, if_neg (by simp [ht])]
  exact onToken_withSupply m supply' (m.reader.note t) (some t)

/-- A step with a token put back reads it again. -/
theorem step_of_backlog (hm : m.reader.backlog = [t]) (ht : t.isIgnorable = false) :
    (m.withSupply supply).step .unit = m.reread.withSupply supply := by
  rw [step, withSupply_reader, Reader.next_of_backlog hm ht, reread, hm]
  exact onToken_withSupply m supply _ (some t)

/-- A run skips what the grammar ignores. -/
theorem run_of_ignorable (hm : m.reader.backlog = [])
    (hs : TokenSupply.next? supply = some (t, supply')) (ht : t.isIgnorable = true) :
    ((m.withSupply supply).run .unit).1 = ((m.withSupply supply').run .unit).1 := by
  have hstep := (step_of_ignorable hm hs ht).2
  cases h : (m.withSupply supply').step .unit with
  | more m' => rw [run_of_step_eq_more (hstep.trans h), run_of_step_eq_more h]
  | done outcome r => rw [run_of_step_eq_done (hstep.trans h), run_of_step_eq_done h]

/-- A run over a supply that gives out `t` goes on as if `t` had been taken. -/
theorem run_of_token (hm : m.reader.backlog = [])
    (hs : TokenSupply.next? supply = some (t, supply')) (ht : t.isIgnorable = false) :
    ((m.withSupply supply).run .unit).1 = (m.absorb t).runWith supply' := by
  rw [run_of_step_eq (step_of_token hm hs ht), absorb]
  cases hfirst : m.onToken .unit (m.reader.note t) (some t) with
  | done outcome r => rfl
  | more m₁ =>
    dsimp only
    obtain hb | ⟨hb, -, -⟩ := (move_of_onToken hfirst).backlog_eq
    · -- the token was kept, and the run goes on with the supply
      rw [reread_of_nil (hb.trans hm)]
    · -- the token was put back: the next step of the run reads it again
      have hb₁ : m₁.reader.backlog = [t] := hb.trans (by rw [Reader.note, hm])
      exact run_of_step_eq (step_of_backlog hb₁ ht)

end Machine

namespace Progress

variable {σ : Type} [TokenSupply σ]

@[simp] theorem push_done (outcome : Except SyntaxError Scope) (r : Reader Unit) (t : Token) :
    (done outcome r).push t = done outcome r := rfl

theorem push_of_ignorable {t : Token} (ht : t.isIgnorable = true) (p : Progress Unit) :
    p.push t = p := by
  cases p with
  | more m => exact if_pos ht
  | done outcome r => rfl

theorem push_more {t : Token} (ht : t.isIgnorable = false) (m : Machine Unit) :
    (more m).push t = m.absorb t :=
  if_neg (by simp [ht])

/-- What is over stays as it is. -/
@[simp] theorem foldl_push_done (outcome : Except SyntaxError Scope) (r : Reader Unit)
    (ts : List Token) : ts.foldl push (done outcome r) = done outcome r := by
  induction ts with
  | nil => rfl
  | cons t ts ih => rw [List.foldl_cons, push_done, ih]

/-- Tokens that the grammar ignores can be left out. -/
theorem foldl_push_filter (ts : List Token) (p : Progress Unit) :
    (ts.filter (!·.isIgnorable)).foldl push p = ts.foldl push p := by
  induction ts generalizing p with
  | nil => rfl
  | cons t ts ih =>
    cases ht : t.isIgnorable with
    | true => rw [List.filter_cons_of_neg (by simp [ht]), ih, List.foldl_cons, push_of_ignorable ht]
    | false => rw [List.filter_cons_of_pos (by simp [ht]), List.foldl_cons, ih, List.foldl_cons]

/-- A machine takes a list of tokens, those aside that the grammar ignores, or the parse is decided
at one of them. -/
theorem foldl_push_cases {m : Machine Unit} (hm : m.reader.backlog = []) (ts : List Token) :
    (∃ m', ts.foldl push (.more m) = .more m' ∧ m.TakesAll (ts.filter (!·.isIgnorable)) m') ∨
      ∃ us t vs m' outcome r, ts = us ++ t :: vs ∧ t.isIgnorable = false ∧
        m.TakesAll (us.filter (!·.isIgnorable)) m' ∧
        m'.onToken .unit (m'.reader.note t) (some t) = .done outcome r ∧
        ∀ ws, (us ++ t :: ws).foldl push (.more m) = .done outcome r := by
  -- the outcome is stated for every `ws` behind the deciding token: the fold never looks at them
  induction ts generalizing m with
  | nil => exact .inl ⟨m, rfl, .nil m⟩
  | cons t ts ih =>
    cases ht : t.isIgnorable with
    | true =>
      have hskip : ∀ us : List Token,
          (t :: us).filter (!·.isIgnorable) = us.filter (!·.isIgnorable) := fun us =>
        List.filter_cons_of_neg (by simp [ht])
      obtain ⟨m', hfold, htakes⟩ |
          ⟨us, u, vs, m', outcome, r, rfl, hu, htakes, hstop, hfold⟩ := ih hm
      · refine .inl ⟨m', ?_, ?_⟩
        · rwa [List.foldl_cons, push_of_ignorable ht]
        · rwa [hskip]
      · refine .inr ⟨t :: us, u, vs, m', outcome, r, rfl, hu, ?_, hstop, fun ws => ?_⟩
        · rwa [hskip]
        · rw [List.cons_append, List.foldl_cons, push_of_ignorable ht]
          exact hfold ws
    | false =>
      have hkeep : ∀ us : List Token,
          (t :: us).filter (!·.isIgnorable) = t :: us.filter (!·.isIgnorable) := fun us =>
        List.filter_cons_of_pos (by simp [ht])
      -- the first token is taken, and the others decide; or it decides by itself
      obtain ⟨m₁, habs, hfirst⟩ | ⟨outcome, r, habs, hstop⟩ := Machine.absorb_cases hm t
      · obtain ⟨m', hfold, htakes⟩ |
            ⟨us, u, vs, m', outcome, r, rfl, hu, htakes, hstop, hfold⟩ := ih hfirst.backlog_eq_nil
        · refine .inl ⟨m', ?_, ?_⟩
          · rwa [List.foldl_cons, push_more ht, habs]
          · rw [hkeep]
            exact .cons hfirst htakes
        · refine .inr ⟨t :: us, u, vs, m', outcome, r, rfl, hu, ?_, hstop, fun ws => ?_⟩
          · rw [hkeep]
            exact .cons hfirst htakes
          · rw [List.cons_append, List.foldl_cons, push_more ht, habs]
            exact hfold ws
      · refine .inr ⟨[], t, ts, m, outcome, r, rfl, ht, .nil m, hstop, fun ws => ?_⟩
        rw [List.nil_append, List.foldl_cons, push_more ht, habs, foldl_push_done]

theorem Settled.push {p : Progress Unit} (hp : p.Settled) (t : Token) : (p.push t).Settled := by
  cases p with
  | done outcome r => exact hp
  | more m =>
    -- a token that is skipped changes nothing, and one that is taken leaves none waiting
    cases ht : t.isIgnorable with
    | true => rwa [push_of_ignorable ht]
    | false =>
      rw [push_more ht]
      exact Machine.settled_absorb (hp m rfl) t

/-- Where no token is left, the machine decides by what it has read. -/
theorem conclude_more {m : Machine Unit} (hm : m.reader.backlog = []) :
    ∃ r, m.onToken .unit m.reader none = .done (conclude (.more m)) r := by
  have hnext : TokenSupply.next? () = none := rfl
  have hdry := Machine.run_of_dry hm hnext
  cases h : m.onToken .unit m.reader none with
  -- without a token no machine goes on
  | more m' => exact absurd h (Machine.onToken_none_ne_more m m' .unit m.reader)
  | done outcome r =>
    rw [h] at hdry
    exact ⟨r, congrArg (Progress.done · r) hdry.symm⟩

/-- **A parse is a fold.** Reading on from a supply amounts to taking all its tokens. -/
theorem runWith_eq_conclude (supply : σ) {p : Progress Unit} (hp : p.Settled) :
    p.runWith supply = ((TokenSupply.tokens supply).foldl push p).conclude := by
  cases p with
  | done outcome r => rw [foldl_push_done]; rfl
  | more m =>
    have hm : m.reader.backlog = [] := hp m rfl
    change ((m.withSupply supply).run .unit).1 = _
    -- by induction on the supply; that no token waits is what makes the next one come from it
    fun_induction TokenSupply.tokens supply generalizing m with
    -- a dry supply decides the parse as the end of a list does
    | case1 supply hs =>
      obtain ⟨r, hr⟩ := conclude_more hm
      rw [Machine.run_of_dry hm hs, hr]
      rfl
    | case2 supply t supply' hs _ ih =>
      rw [List.foldl_cons]
      cases ht : t.isIgnorable with
      | true =>
        rw [Machine.run_of_ignorable hm hs ht, push_of_ignorable ht]
        exact ih m hp hm
      | false =>
        rw [Machine.run_of_token hm hs ht, push_more ht]
        have hsettled := Machine.settled_absorb hm t
        cases h : m.absorb t with
        -- what is left of the supply is never asked for
        | done outcome r => rw [foldl_push_done]; rfl
        | more m' =>
          rw [h] at hsettled
          exact ih m' hsettled (hsettled m' rfl)

theorem settled_start : start.Settled := by
  intro m h
  cases h
  rfl

end Progress

/-- Reading a source amounts to taking all tokens of its supply. -/
theorem Reader.readSource_eq_conclude {σ : Type} [TokenSupply σ] (supply : σ) :
    (Reader.ofSupply supply).readSource =
      ((TokenSupply.tokens supply).foldl Progress.push Progress.start).conclude :=
  Progress.runWith_eq_conclude supply Progress.settled_start

/-- A list of tokens is parsed by taking them one by one. -/
theorem Scope.ofTokens_eq_conclude (ts : List Token) :
    Scope.ofTokens ts = (ts.foldl Progress.push Progress.start).conclude := by
  rw [Scope.ofTokens, Reader.readSource_eq_conclude, TokenSupply.tokens_list]

/-- It makes no difference whether a scan is parsed while it runs or afterwards. -/
theorem Scope.ofScan_eq_ofTokens {α : Type} (scan : Emitter α) :
    Scope.ofScan scan = Scope.ofTokens scan.tokens := by
  rw [Scope.ofScan, Reader.readSource_eq_conclude, TokenSupply.tokens_emitter,
    Scope.ofTokens_eq_conclude]

/-- A source is parsed as the list of its tokens is. -/
theorem Scope.ofSource_eq_ofTokens (source : String) :
    Scope.ofSource source = Scope.ofTokens (lex source) :=
  Scope.ofScan_eq_ofTokens _

end DeclFront
