import DeclFront.Parse.Machine
import Mathlib.Tactic.SplitIfs

/-!
# What a token does to a parse

A machine decides about a token in three layers: the focus, the step of a declaration, the tests of
that step. This module flattens them. `Machine.Move` lists the fourteen ways in which a parse of a
whole source goes on, each with the token it takes and the machine it leaves. The list is exact:
`Move.onToken_eq` and `move_of_onToken` are its two directions.

A parse that does not go on has met the end of its input between two statements of the source
(`Machine.Accepts`) or a token that does not fit. The failure then points at that token, or at the
end of what was read (`span_of_onToken_eq_error`).

Four moves put their token back, and none of them leads to a place where one of the four is
possible (`Move.backlog_eq`). So a token is read twice at most, and at once.
-/

namespace DeclFront

variable {σ : Type}

namespace Machine

/-- The ways in which a parse goes on after the token `t`, where `r` is the reader after it. The
arguments say what was open and in focus before, and the machine that follows. -/
inductive Move (r : Reader σ) (t : Token) : List OpenDecl → Focus → Machine σ → Prop
  /-- A declaration begins; its keyword is put back. -/
  | declare {enclosing done} (h : t.kind = .keyword .function) :
      Move r t enclosing (.statement done)
        ⟨r.putBack t, enclosing, .declaration done (.named "") (.step .keyword)⟩
  /-- A closing brace ends a body; it is put back for its declaration. -/
  | endBody {outer enclosing done} (h : t.closes .brace = true) :
      Move r t (outer :: enclosing) (.statement done)
        ⟨(r.putBack t).closeBodies 1, enclosing,
          .declaration outer.before { outer.decl with body := done } (.step .closeBody)⟩
  /-- An end marker ends a body. -/
  | cutBody {outer enclosing done} (h : t.kind = .endMarker) :
      Move r t (outer :: enclosing) (.statement done)
        ⟨r.closeBodies 1, enclosing,
          .declaration outer.before { outer.decl with body := done } (.step .closeBody)⟩
  | keyword {enclosing done decl} (h : t.kind = .keyword .function) :
      Move r t enclosing (.declaration done decl (.step .keyword))
        ⟨r, enclosing, .declaration done { decl with keyword := t.kind } (.step .name)⟩
  | name {enclosing done decl} (h : t.kind = .identifier) :
      Move r t enclosing (.declaration done decl (.step .name))
        ⟨r, enclosing, .declaration done { decl with name := t.text } (.step .openParams)⟩
  | openParams {enclosing done decl} (h : t.opens .paren = true) :
      Move r t enclosing (.declaration done decl (.step .openParams))
        ⟨r, enclosing, .declaration done decl (.step .parameter)⟩
  /-- The list ends where an argument could stand. -/
  | noParameter {enclosing done decl} (h : t.closes .paren = true) :
      Move r t enclosing (.declaration done decl (.step .parameter))
        ⟨r.putBack t, enclosing, .declaration done decl (.step .closeParams)⟩
  | argument {enclosing done decl} (h : t.kind = .identifier) :
      Move r t enclosing (.declaration done decl (.step .parameter))
        ⟨r, enclosing, .declaration done decl (.argumentType t.text)⟩
  | argumentType {enclosing done decl argument} (h : t.kind = .keyword .typeName) :
      Move r t enclosing (.declaration done decl (.argumentType argument))
        ⟨r, enclosing, .declaration done
          { decl with arguments := decl.arguments ++ [⟨argument, t.text⟩] } (.step .delimiter)⟩
  | comma {enclosing done decl} (h : t.isLiteral "," = true) :
      Move r t enclosing (.declaration done decl (.step .delimiter))
        ⟨r, enclosing, .declaration done decl (.step .parameter)⟩
  /-- The list ends after an argument. -/
  | noComma {enclosing done decl} (h : t.closes .paren = true) :
      Move r t enclosing (.declaration done decl (.step .delimiter))
        ⟨r.putBack t, enclosing, .declaration done decl (.step .closeParams)⟩
  | closeParams {enclosing done decl} (h : t.closes .paren = true) :
      Move r t enclosing (.declaration done decl (.step .closeParams))
        ⟨r, enclosing, .declaration done decl (.step .body)⟩
  /-- A body opens, if another one may. -/
  | enterBody {enclosing done decl} (h : t.opens .brace = true)
      (room : r.openBodies < maxOpenBodies) :
      Move r t enclosing (.declaration done decl (.step .body))
        ⟨r.openBody, ⟨done, decl⟩ :: enclosing, .statement []⟩
  | closeBody {enclosing done decl} (h : t.closes .brace = true) :
      Move r t enclosing (.declaration done decl (.step .closeBody))
        ⟨r, enclosing, .statement (done ++ [decl])⟩

/-- The end of the tokens, or the end marker `token`, ends the source, of which the declarations
`done` are complete. -/
def Accepts (m : Machine σ) (token : Option Token) (done : Scope) : Prop :=
  m.enclosing = [] ∧ m.focus = .statement done ∧ ∀ t ∈ token, t.kind = .endMarker

/-- The token `t` opens a body where no further one may be open. -/
def Overflows (m : Machine σ) (r : Reader σ) (t : Token) : Prop :=
  (∃ done decl, m.focus = .declaration done decl (.step .body)) ∧ t.opens .brace = true ∧
    maxOpenBodies ≤ r.openBodies

variable {m m' : Machine σ} {r r' : Reader σ} {t : Token}

/-! ### The list of moves is exact -/

/-- Every move is what the machine does. -/
theorem Move.onToken_eq (h : Move r t m.enclosing m.focus m') :
    m.onToken .unit r (some t) = .more m' := by
  obtain ⟨reader, enclosing, focus⟩ := m
  cases h with
  | declare h => simp [onToken, onStatement, Reader.reactStatement, h, Token.closes]
  | endBody h =>
    have hk := Token.kind_of_closes h
    simp [onToken, onStatement, Reader.reactStatement, innerLevel, h, hk]
  | cutBody h => simp [onToken, onStatement, Reader.reactStatement, h]
  | keyword h => simp [onToken, onDeclaration, Reader.react, h]
  | name h => simp [onToken, onDeclaration, Reader.react, h]
  | openParams h => simp [onToken, onDeclaration, Reader.react, h]
  | noParameter h => simp [onToken, onDeclaration, Reader.react, h]
  | argument h => simp [onToken, onDeclaration, Reader.react, h, Token.closes]
  | argumentType h => simp [onToken, onDeclaration, Reader.reactType, h]
  | comma h => simp [onToken, onDeclaration, Reader.react, h]
  | noComma h =>
    have hk := Token.kind_of_closes h
    simp [onToken, onDeclaration, Reader.react, h, hk, Token.isLiteral]
  | closeParams h => simp [onToken, onDeclaration, Reader.react, h]
  | enterBody h room => simp [onToken, onDeclaration, Reader.react, h, room]
  | closeBody h => simp [onToken, onDeclaration, Reader.react, h]

/-- Before a declaration or at the end of a scope, the machine goes on with one of the moves. -/
theorem move_of_onStatement {done : Scope}
    (h : m.onStatement .unit done r (some t) = .more m') :
    Move r t m.enclosing (.statement done) m' := by
  obtain ⟨reader, enclosing, focus⟩ := m
  -- the tests are split in the order in which they are made; where a parse is abandoned, `h` is
  -- absurd, and every other branch is the move of the same name
  simp only [onStatement, Reader.reactStatement] at h
  split_ifs at h with hend herr hclose hfun
  · cases enclosing with
    -- outside every body an end marker ends the parse
    | nil => simp at h
    | cons outer enclosing =>
      simp only [Progress.more.injEq] at h
      exact h ▸ .cutBody hend
  · simp [abandon] at h
  · cases enclosing with
    -- the guard asks for a body to close
    | nil => simp [innerLevel] at hclose
    | cons outer enclosing =>
      simp only [Progress.more.injEq] at h
      exact h ▸ .endBody hclose.2
  · simp only [Progress.more.injEq] at h
    exact h ▸ .declare hfun
  · simp [abandon] at h

/-- So it does inside a declaration. -/
theorem move_of_onDeclaration {done : Scope} {decl : FunctionDecl} {place : DeclPlace}
    (h : m.onDeclaration done decl place r (some t) = .more m') :
    Move r t m.enclosing (.declaration done decl place) m' := by
  cases place with
  | argumentType argument =>
    simp only [onDeclaration, Reader.reactType] at h
    split_ifs at h with htype hcut
    · simp only [Progress.more.injEq] at h
      exact h ▸ .argumentType htype
    · simp [abandon] at h
    · simp [abandon] at h
  | step s =>
    cases s with
    | keyword =>
      simp only [onDeclaration, Reader.react] at h
      split_ifs at h with hk
      · simp only [Progress.more.injEq] at h
        exact h ▸ .keyword hk
      · simp [abandon] at h
    | name =>
      simp only [onDeclaration, Reader.react] at h
      split_ifs at h with hk
      · simp only [Progress.more.injEq] at h
        exact h ▸ .name hk
      · simp [abandon] at h
    | openParams =>
      simp only [onDeclaration, Reader.react, Option.any_some] at h
      split_ifs at h with hk
      · simp only [Progress.more.injEq] at h
        exact h ▸ .openParams hk
      · simp [abandon] at h
    | parameter =>
      simp only [onDeclaration, Reader.react] at h
      split_ifs at h with hclose hname hcut
      · simp only [Progress.more.injEq] at h
        exact h ▸ .noParameter hclose
      · simp only [Progress.more.injEq] at h
        exact h ▸ .argument hname
      · simp [abandon] at h
      · simp [abandon] at h
    | delimiter =>
      simp only [onDeclaration, Reader.react] at h
      split_ifs at h with hcomma hclose hcut
      · simp only [Progress.more.injEq] at h
        exact h ▸ .comma hcomma
      · simp only [Progress.more.injEq] at h
        exact h ▸ .noComma hclose
      · simp [abandon] at h
      · simp [abandon] at h
    | closeParams =>
      simp only [onDeclaration, Reader.react, Option.any_some] at h
      split_ifs at h with hk
      · simp only [Progress.more.injEq] at h
        exact h ▸ .closeParams hk
      · simp [abandon] at h
    | body =>
      simp only [onDeclaration, Reader.react, Option.any_some] at h
      split_ifs at h with hk room
      · simp only [Progress.more.injEq] at h
        exact h ▸ .enterBody hk room
      · simp [abandon] at h
      · simp [abandon] at h
    | closeBody =>
      simp only [onDeclaration, Reader.react, Option.any_some] at h
      split_ifs at h with hk
      · simp only [Progress.more.injEq] at h
        exact h ▸ .closeBody hk
      · simp [abandon] at h

/-- What the machine does where it goes on is one of the moves. -/
theorem move_of_onToken (h : m.onToken .unit r (some t) = .more m') :
    Move r t m.enclosing m.focus m' := by
  obtain ⟨reader, enclosing, focus⟩ := m
  cases focus with
  | statement done => exact move_of_onStatement h
  | declaration done decl place => exact move_of_onDeclaration h

/-! ### Where a parse stops -/

end Machine

namespace Reader

variable {r q : Reader σ} {token : Option Token} {e : SyntaxError}

/-- A failure at the start of a statement points at its token. -/
theorem span_of_reactStatement {level : ScopeLevel}
    (h : r.reactStatement level token = .fail e q) : e.span = r.spanOf token := by
  unfold reactStatement at h
  repeat' split at h
  all_goals simp at h
  all_goals obtain ⟨rfl, -⟩ := h
  all_goals rfl

/-- A failure inside a declaration points at its token. -/
theorem span_of_react {decl : FunctionDecl} {s : DeclStep}
    (h : r.react decl token s = .fail e q) : e.span = r.spanOf token := by
  cases s <;> simp only [react] at h <;> (repeat' split at h)
  all_goals simp at h
  all_goals obtain ⟨rfl, -⟩ := h
  all_goals rfl

/-- A failure at the type of an argument points at its token. -/
theorem span_of_reactType {decl : FunctionDecl} {argument : String}
    (h : r.reactType decl argument token = .error e) : e.span = r.spanOf token := by
  unfold reactType at h
  repeat' split at h
  all_goals simp at h
  all_goals subst h
  all_goals rfl

end Reader

namespace Machine

variable {m m' : Machine σ} {r r' : Reader σ} {t : Token} {token : Option Token}

/-- A failure points at the token that does not fit, or at the end of what was read. -/
theorem span_of_onToken_eq_error {level : ScopeLevel} {e : SyntaxError}
    (h : m.onToken level r token = .done (.error e) r') : e.span = r.spanOf token := by
  unfold onToken at h
  split at h
  · unfold onStatement at h
    split at h
    · simp at h
    · split at h <;> simp at h
    · next error q hq =>
      simp only [abandon, Progress.done.injEq, Except.error.injEq] at h
      exact h.1 ▸ Reader.span_of_reactStatement hq
  · unfold onDeclaration at h
    split at h
    · split at h
      · simp at h
      · simp at h
      · simp at h
      · simp at h
      · next error q hq =>
        simp only [abandon, Progress.done.injEq, Except.error.injEq] at h
        exact h.1 ▸ Reader.span_of_react hq
    · split at h
      · simp at h
      · next error hq =>
        simp only [abandon, Progress.done.injEq, Except.error.injEq] at h
        exact h.1 ▸ Reader.span_of_reactType hq

/-- A parse of a source succeeds only at an end of input between two of its statements. -/
theorem accepts_of_onToken {T : Scope} (h : m.onToken .unit r token = .done (.ok T) r') :
    m.Accepts token T := by
  obtain ⟨reader, enclosing, focus⟩ := m
  cases focus with
  | statement done =>
    simp only [onToken, onStatement] at h
    split at h
    · simp at h
    · next q hq =>
      cases enclosing with
      | cons outer enclosing => simp at h
      | nil =>
        simp only [Progress.done.injEq, Except.ok.injEq] at h
        refine ⟨rfl, by rw [h.1], ?_⟩
        -- a scope that no body surrounds is closed by an end marker, not by a brace
        intro t ht
        cases ht
        simp only [Reader.reactStatement] at hq
        split_ifs at hq with hend herr hclose hfun
        · exact hend
        · simp [innerLevel] at hclose
    · simp [abandon] at h
  | declaration done decl place =>
    -- inside a declaration a parse goes on or fails
    simp only [onToken, onDeclaration] at h
    split at h
    · split at h <;> simp [abandon] at h
    · split at h <;> simp [abandon] at h

/-- At such an end the parse succeeds. -/
theorem Accepts.onToken_eq {T : Scope} (h : m.Accepts token T) :
    m.onToken .unit r token = .done (.ok T) r := by
  obtain ⟨henc, hfocus, hend⟩ := h
  cases token with
  | none => simp [onToken, hfocus, onStatement, Reader.reactStatement, innerLevel, henc]
  | some t =>
    have hk : t.kind = .endMarker := hend t rfl
    simp [onToken, hfocus, onStatement, Reader.reactStatement, hk, henc]

/-- One body too many is reported as such. -/
theorem Overflows.onToken_eq (h : m.Overflows r t) :
    m.onToken .unit r (some t) =
      .done (.error (.nestedTooDeep maxOpenBodies t.span)) (r.closeBodies m.enclosing.length) := by
  obtain ⟨⟨done, decl, hfocus⟩, hopen, hfull⟩ := h
  have hroom : ¬ r.openBodies < maxOpenBodies := Nat.not_lt.2 hfull
  simp [onToken, hfocus, onDeclaration, Reader.react, hopen, hroom, abandon, Reader.spanOf]

/-! ### Tokens put back -/

end Machine

namespace Reader

variable (r : Reader σ) (t : Token) (n : Nat)

@[simp] theorem backlog_putBack : (r.putBack t).backlog = t :: r.backlog := rfl

@[simp] theorem backlog_note : (r.note t).backlog = r.backlog := rfl

@[simp] theorem backlog_openBody : r.openBody.backlog = r.backlog := rfl

@[simp] theorem backlog_closeBodies : (r.closeBodies n).backlog = r.backlog := rfl

end Reader

namespace Machine

variable {m' : Machine σ} {r : Reader σ} {t : Token}

/-- A move puts back its own token or none. It does so only to read it again where no token is put
back. -/
theorem Move.backlog_eq {enclosing : List OpenDecl} {focus : Focus}
    (h : Move r t enclosing focus m') :
    m'.reader.backlog = r.backlog ∨
      (m'.reader.backlog = t :: r.backlog ∧ 0 < focus.rank ∧ m'.focus.rank = 0) := by
  cases h with
  -- these four are the places of rank one
  | declare | endBody | noParameter | noComma => exact .inr ⟨rfl, Nat.zero_lt_one, rfl⟩
  | _ => exact .inl rfl

/-- A token that was put back fits where it is read again. -/
theorem Move.exists_again {enclosing : List OpenDecl} {focus : Focus}
    (h : Move r t enclosing focus m') (hback : m'.reader.backlog = t :: r.backlog) (q : Reader σ) :
    ∃ m'', Move q t m'.enclosing m'.focus m'' ∧ m''.reader = q := by
  cases h with
  | declare h => exact ⟨_, .keyword h, rfl⟩
  | endBody h => exact ⟨_, .closeBody h, rfl⟩
  | noParameter h => exact ⟨_, .closeParams h, rfl⟩
  | noComma h => exact ⟨_, .closeParams h, rfl⟩
  -- the other moves leave the backlog as it was, which `hback` denies
  | _ => exact absurd (congrArg List.length hback) (by simp)

end Machine

end DeclFront
