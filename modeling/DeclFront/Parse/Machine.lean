import DeclFront.Parse.Declaration

/-!
# Reading a scope

Declarations nest, so reading a scope needs a stack. The machine of this module keeps it explicit:
the declarations whose bodies are open, innermost first, and a focus on what is being read in the
innermost of them. A step of the machine reads one token and moves the focus.

Tokens are put back, so it is not their number alone that decreases. `Machine.measure` counts every
token twice and adds one in the three places from which a token can be put back; a step always
lowers it (`measure_lt_of_step`), and that is why a parse ends.
-/

namespace DeclFront

/-- Where a scope stands, which decides how it may end. -/
inductive ScopeLevel where
  /-- The whole source: it ends with the tokens. -/
  | unit
  /-- A function body: it ends before its closing brace. -/
  | body
deriving DecidableEq, Repr, Inhabited

/-- What the token at the start of a statement means. -/
inductive StatementReaction (σ : Type) where
  /-- A declaration begins. -/
  | declare (reader : Reader σ)
  /-- The scope ends. -/
  | close (reader : Reader σ)
  /-- No statement begins so. -/
  | fail (error : SyntaxError) (reader : Reader σ)

/-- What a scope of the given level makes of a token that was read at the start of a statement. An
end marker ends every scope; a closing brace ends a body and is left to its declaration. -/
def Reader.reactStatement {σ : Type} (r : Reader σ) (level : ScopeLevel) (token : Option Token) :
    StatementReaction σ :=
  match token with
  | none =>
    match level with
    | .unit => .close r
    | .body => .fail (.unexpectedEnd (r.spanOf none)) r
  | some t =>
    if t.kind = .endMarker then .close r
    else if t.kind = .error then .fail (.ofErrorToken t) r
    else if level = .body ∧ t.closes .brace then .close (r.putBack t)
    else if t.kind = .keyword .function then .declare (r.putBack t)
    else .fail (.unsupportedStatement (Token.found token) t.span) r

/-- A place inside a declaration. -/
inductive DeclPlace where
  /-- At one of the eight steps. -/
  | step (step : DeclStep)
  /-- After the name of an argument, where its type stands. -/
  | argumentType (argument : String)
deriving DecidableEq, Repr

/-- What a machine is reading in the innermost open scope, of which the declarations `done` are
complete. -/
inductive Focus where
  /-- The start of a statement, or the end of the scope. -/
  | statement (done : Scope)
  /-- The declaration `decl`, of which the parts before `place` are known. -/
  | declaration (done : Scope) (decl : FunctionDecl) (place : DeclPlace)

/-- A declaration whose body is open. -/
structure OpenDecl where
  /-- The complete declarations before it in its scope. -/
  before : Scope
  decl : FunctionDecl

/-- A parse of one scope, in progress. -/
structure Machine (σ : Type) where
  reader : Reader σ
  /-- The declarations whose bodies are open, innermost first. -/
  enclosing : List OpenDecl
  focus : Focus

/-- The outcome of a step of a machine. -/
inductive Progress (σ : Type) where
  /-- The scope goes on. -/
  | more (machine : Machine σ)
  /-- The scope has ended, or the parse failed. -/
  | done (outcome : Except SyntaxError Scope) (reader : Reader σ)

/-- One where a token may be put back. -/
def DeclPlace.rank : DeclPlace → Nat
  | .step .parameter => 1
  | .step .delimiter => 1
  | _ => 0

/-- One where a token may be put back. -/
def Focus.rank : Focus → Nat
  | .statement _ => 1
  | .declaration _ _ place => place.rank

namespace Machine

variable {σ : Type}

/-- A machine at the start of a scope. -/
def start (reader : Reader σ) : Machine σ :=
  ⟨reader, [], .statement []⟩

/-- The level of the innermost open scope, if the outermost has level `level`. -/
def innerLevel (m : Machine σ) (level : ScopeLevel) : ScopeLevel :=
  if m.enclosing.isEmpty then level else .body

/-- Give up: every body that the machine opened is closed. -/
def abandon (m : Machine σ) (error : SyntaxError) (reader : Reader σ) : Progress σ :=
  .done (.error error) (reader.closeBodies m.enclosing.length)

/-- What a machine makes of a token at the start of a statement. -/
def onStatement (m : Machine σ) (level : ScopeLevel) (done : Scope) (reader : Reader σ)
    (token : Option Token) : Progress σ :=
  match reader.reactStatement (m.innerLevel level) token with
  | .declare reader =>
    .more ⟨reader, m.enclosing, .declaration done (.named "") (.step .keyword)⟩
  | .close reader =>
    match m.enclosing with
    | [] => .done (.ok done) reader
    | outer :: enclosing =>
      .more ⟨reader.closeBodies 1, enclosing,
        .declaration outer.before { outer.decl with body := done } (.step .closeBody)⟩
  | .fail error reader => m.abandon error reader

/-- What a machine makes of a token inside a declaration. -/
def onDeclaration (m : Machine σ) (done : Scope) (decl : FunctionDecl) (place : DeclPlace)
    (reader : Reader σ) (token : Option Token) : Progress σ :=
  match place with
  | .step step =>
    match reader.react decl token step with
    | .goto next decl reader => .more ⟨reader, m.enclosing, .declaration done decl (.step next)⟩
    | .awaitType argument reader =>
      .more ⟨reader, m.enclosing, .declaration done decl (.argumentType argument)⟩
    | .enterBody reader => .more ⟨reader, ⟨done, decl⟩ :: m.enclosing, .statement []⟩
    | .finish reader => .more ⟨reader, m.enclosing, .statement (done ++ [decl])⟩
    | .fail error reader => m.abandon error reader
  | .argumentType argument =>
    match reader.reactType decl argument token with
    | .ok decl => .more ⟨reader, m.enclosing, .declaration done decl (.step .delimiter)⟩
    | .error error => m.abandon error reader

/-- What a machine makes of a token that was read, where `reader` is what remains. -/
def onToken (m : Machine σ) (level : ScopeLevel) (reader : Reader σ) (token : Option Token) :
    Progress σ :=
  match m.focus with
  | .statement done => m.onStatement level done reader token
  | .declaration done decl place => m.onDeclaration done decl place reader token

/-- After the last token a machine stops. -/
theorem onToken_none_ne_more (m m' : Machine σ) (level : ScopeLevel) (reader : Reader σ) :
    m.onToken level reader none ≠ .more m' := by
  intro h
  cases hf : m.focus with
  | statement done =>
    simp only [onToken, hf, onStatement, Reader.reactStatement] at h
    cases he : m.enclosing with
    | nil => cases level <;> simp [innerLevel, he, abandon] at h
    | cons outer enclosing => simp [innerLevel, he, abandon] at h
  | declaration done decl place =>
    simp only [onToken, hf, onDeclaration] at h
    cases place with
    | step s => cases s <;> simp [Reader.react, abandon] at h
    | argumentType argument => simp [Reader.reactType, abandon] at h

variable [TokenSupply σ]

/-- One step of a machine whose outermost scope has level `level`. -/
def step (m : Machine σ) (level : ScopeLevel) : Progress σ :=
  m.onToken level m.reader.next.2 m.reader.next.1

/-- What a parse decreases. -/
def measure (m : Machine σ) : Nat :=
  2 * m.reader.remaining + m.focus.rank

end Machine

/-! ### Why a parse ends -/

namespace Reader

variable {σ : Type} [TokenSupply σ]

@[simp]
theorem remaining_closeBodies (r : Reader σ) (n : Nat) :
    (r.closeBodies n).remaining = r.remaining := rfl

@[simp]
theorem remaining_openBody (r : Reader σ) : r.openBody.remaining = r.remaining := rfl

/-- Where a declaration begins, its first token was put back. -/
theorem remaining_of_declare {r q : Reader σ} {level : ScopeLevel} {token : Option Token}
    (h : r.reactStatement level token = .declare q) : q.remaining = r.remaining + 1 := by
  unfold reactStatement at h
  repeat' split at h
  all_goals simp at h
  rw [← h, remaining_putBack]

/-- Where a scope closes, at most its last token was put back. -/
theorem remaining_of_close {r q : Reader σ} {level : ScopeLevel} {token : Option Token}
    (h : r.reactStatement level token = .close q) : q.remaining ≤ r.remaining + 1 := by
  unfold reactStatement at h
  repeat' split at h
  all_goals simp at h
  all_goals subst h
  all_goals simp

/-- A step that goes on inside the declaration lowers the measure. -/
theorem measure_of_goto {r q : Reader σ} {decl decl' : FunctionDecl} {token : Option Token}
    {s next : DeclStep} (h : r.react decl token s = .goto next decl' q) :
    2 * q.remaining + (DeclPlace.step next).rank <
      2 * (r.remaining + 1) + (DeclPlace.step s).rank := by
  cases s <;> simp only [react] at h <;> (repeat' split at h)
  all_goals simp at h
  all_goals obtain ⟨rfl, _, rfl⟩ := h
  all_goals simp [DeclPlace.rank]
  all_goals omega

omit [TokenSupply σ] in
/-- Waiting for a type, nothing was put back. -/
theorem eq_of_awaitType {r q : Reader σ} {decl : FunctionDecl} {token : Option Token}
    {s : DeclStep} {argument : String} (h : r.react decl token s = .awaitType argument q) :
    q = r := by
  cases s <;> simp only [react] at h <;> (repeat' split at h)
  all_goals simp_all

omit [TokenSupply σ] in
/-- Entering a body, nothing was put back. -/
theorem eq_openBody_of_enterBody {r q : Reader σ} {decl : FunctionDecl} {token : Option Token}
    {s : DeclStep} (h : r.react decl token s = .enterBody q) : q = r.openBody := by
  cases s <;> simp only [react] at h <;> (repeat' split at h)
  all_goals simp_all

omit [TokenSupply σ] in
/-- At the end of a declaration, nothing was put back. -/
theorem eq_of_finish {r q : Reader σ} {decl : FunctionDecl} {token : Option Token}
    {s : DeclStep} (h : r.react decl token s = .finish q) : q = r := by
  cases s <;> simp only [react] at h <;> (repeat' split at h)
  all_goals simp_all

end Reader

namespace Machine

variable {σ : Type} [TokenSupply σ]

/-- A token lowers the measure, even if it is put back. -/
theorem measure_lt_of_onToken {m m' : Machine σ} {level : ScopeLevel} {reader : Reader σ}
    {token : Option Token} (h : m.onToken level reader token = .more m') :
    m'.measure < 2 * (reader.remaining + 1) + m.focus.rank := by
  cases hf : m.focus with
  | statement done =>
    simp only [onToken, hf, onStatement] at h
    split at h
    · next q hq =>
      simp only [Progress.more.injEq] at h
      have := Reader.remaining_of_declare hq
      simp only [← h, measure, Focus.rank, DeclPlace.rank]
      omega
    · next q hq =>
      have := Reader.remaining_of_close hq
      split at h
      · simp at h
      · simp only [Progress.more.injEq] at h
        simp only [← h, measure, Focus.rank, DeclPlace.rank, Reader.remaining_closeBodies]
        omega
    · simp [abandon] at h
  | declaration done decl place =>
    simp only [onToken, hf, onDeclaration] at h
    cases place with
    | step s =>
      simp only at h
      split at h
      · next next decl' q hq =>
        simp only [Progress.more.injEq] at h
        simpa only [← h, measure, Focus.rank] using Reader.measure_of_goto hq
      · next argument q hq =>
        simp only [Progress.more.injEq] at h
        simp only [← h, measure, Focus.rank, DeclPlace.rank, Reader.eq_of_awaitType hq]
        omega
      · next q hq =>
        simp only [Progress.more.injEq] at h
        simp only [← h, measure, Focus.rank, Reader.eq_openBody_of_enterBody hq,
          Reader.remaining_openBody]
        omega
      · next q hq =>
        simp only [Progress.more.injEq] at h
        simp only [← h, measure, Focus.rank, Reader.eq_of_finish hq]
        omega
      · simp [abandon] at h
    | argumentType argument =>
      simp only at h
      split at h
      · simp only [Progress.more.injEq] at h
        simp only [← h, measure, Focus.rank, DeclPlace.rank]
        omega
      · simp [abandon] at h

/-- **Termination.** A step that goes on lowers the measure. -/
theorem measure_lt_of_step {m m' : Machine σ} {level : ScopeLevel}
    (h : m.step level = .more m') : m'.measure < m.measure := by
  unfold step at h
  cases hn : m.reader.next with
  | mk token reader =>
    rw [hn] at h
    cases token with
    | none => exact absurd h (onToken_none_ne_more m m' level reader)
    | some t =>
      have hread := Reader.remaining_lt_of_next hn
      have htoken := measure_lt_of_onToken h
      simp only [measure] at htoken ⊢
      omega

/-- Run a machine until its outermost scope, of level `level`, has ended or the parse has failed. -/
def run (m : Machine σ) (level : ScopeLevel) : Except SyntaxError Scope × Reader σ :=
  match h : m.step level with
  | .more m' =>
    have _lt := measure_lt_of_step h
    run m' level
  | .done outcome reader => (outcome, reader)
termination_by m.measure

end Machine

end DeclFront
