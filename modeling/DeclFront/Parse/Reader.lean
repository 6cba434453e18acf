import DeclFront.Token.Emitter

/-!
# Reading tokens, and putting them back

A reader gives out the tokens that matter to the grammar, one at a time, and takes tokens back to
give them out again. Seen from outside its input is a stack: what was put back last is read first,
and beneath everything put back lie the tokens not yet drawn from the supply.

The supply is abstract, so that one parser serves a list of tokens and a scan in progress. All it
promises is to run dry: each token drawn leaves fewer to draw, which is what every loop over a
reader decreases.
-/

namespace DeclFront

/-- A finite supply of tokens, drawn one at a time. -/
class TokenSupply (σ : Type) where
  /-- The next token and the rest of the supply, if any token is left. -/
  next? : σ → Option (Token × σ)
  /-- How many tokens are left. -/
  remaining : σ → Nat
  /-- Drawing a token leaves fewer. -/
  remaining_lt {s s' : σ} {t : Token} : next? s = some (t, s') → remaining s' < remaining s

instance : TokenSupply (List Token) where
  next?
    | [] => none
    | t :: ts => some (t, ts)
  remaining := List.length
  remaining_lt {s s' t} h := by
    cases s with
    | nil => simp at h
    | cons head tail =>
      simp only [Option.some.injEq, Prod.mk.injEq] at h
      obtain ⟨_, rfl⟩ := h
      simp

instance {α : Type} : TokenSupply (Emitter α) where
  next? := Emitter.next?
  remaining e := e.tokens.length
  remaining_lt {s s' t} h := by
    cases s with
    | halt a => simp [Emitter.next?] at h
    | offer token resume =>
      simp only [Emitter.next?, Option.some.injEq, Prod.mk.injEq] at h
      obtain ⟨_, rfl⟩ := h
      simp

/-- A supply of tokens with what was put back in front of it. -/
structure Reader (σ : Type) where
  supply : σ
  /-- The tokens put back, last one first. -/
  backlog : List Token
  /-- The furthest end of a token read so far: where the input ends, for all that is known. -/
  furthest : Nat
  /-- How many function bodies are open. -/
  openBodies : Nat
deriving Repr

namespace Reader

variable {σ : Type}

/-- A reader of which nothing was read. -/
def ofSupply (supply : σ) : Reader σ :=
  ⟨supply, [], 0, 0⟩

/-- Put a token back, to be read next. -/
def putBack (r : Reader σ) (t : Token) : Reader σ :=
  { r with backlog := t :: r.backlog }

/-- Note that a token was read. -/
def note (r : Reader σ) (t : Token) : Reader σ :=
  { r with furthest := max r.furthest t.span.stop }

/-- The span at which a failure about `token` lies: its own, or the end of what was read. -/
def spanOf (r : Reader σ) : Option Token → Span
  | some t => t.span
  | none => Span.point r.furthest

variable [TokenSupply σ]

/-- How many tokens are left to read, those put back included. -/
def remaining (r : Reader σ) : Nat :=
  r.backlog.length + TokenSupply.remaining r.supply

/-- The next token of any kind: one put back if there is one, else one from the supply. -/
def draw? (r : Reader σ) : Option (Token × Reader σ) :=
  match r.backlog with
  | t :: backlog => some (t, { r with backlog })
  | [] =>
    match TokenSupply.next? r.supply with
    | some (t, supply) => some (t, { r with supply })
    | none => none

/-- **Progress.** Drawing a token leaves fewer. -/
theorem remaining_lt_of_draw? {r r' : Reader σ} {t : Token} (h : r.draw? = some (t, r')) :
    r'.remaining < r.remaining := by
  unfold draw? at h
  split at h
  · next t' backlog hb =>
    simp only [Option.some.injEq, Prod.mk.injEq] at h
    obtain ⟨_, rfl⟩ := h
    simp [remaining, hb]
  · next hb =>
    split at h
    · next t' supply hs =>
      simp only [Option.some.injEq, Prod.mk.injEq] at h
      obtain ⟨_, rfl⟩ := h
      have := TokenSupply.remaining_lt hs
      simp only [remaining]
      omega
    · simp at h

/-- Read the next token that matters to the grammar. -/
def next (r : Reader σ) : Option Token × Reader σ :=
  match h : r.draw? with
  | none => (none, r)
  | some (t, r') =>
    have _lt := remaining_lt_of_draw? h
    if t.isIgnorable then next r' else (some t, r'.note t)
termination_by r.remaining

/-- Look at the next token that matters, leaving it to be read. -/
def peek (r : Reader σ) : Option Token × Reader σ :=
  match r.next with
  | (some t, r) => (some t, r.putBack t)
  | (none, r) => (none, r)

@[simp]
theorem remaining_putBack (r : Reader σ) (t : Token) :
    (r.putBack t).remaining = r.remaining + 1 := by
  simp only [remaining, putBack, List.length_cons]
  omega

@[simp]
theorem remaining_note (r : Reader σ) (t : Token) : (r.note t).remaining = r.remaining := rfl

/-- Reading a token leaves fewer. -/
theorem remaining_lt_of_next {r r' : Reader σ} {t : Token} (h : r.next = (some t, r')) :
    r'.remaining < r.remaining := by
  fun_induction next r with
  | case1 => simp at h
  | case2 r t' r₁ hd _lt hi ih => exact Nat.lt_trans (ih h) _lt
  | case3 r t' r₁ hd _lt hi =>
    simp only [Prod.mk.injEq] at h
    obtain ⟨_, rfl⟩ := h
    exact _lt

end Reader

end DeclFront
