import DeclFront.Token

/-!
# Processes that emit tokens

A scan is a process: it offers its tokens one at a time and learns after each whether somebody took
it. `Emitter α` is such a process with a final result in `α`, as a tree that branches on the answer
to each offer.

Keeping the process apart from its consumer lets one scanner serve every consumer:

* `tokens` lets everything be taken and lists it: the drained scan;
* `next?` takes a single token and keeps the suspended rest: the streamed scan;
* `into` hands the tokens to a sink with a state and a will of its own.
-/

namespace DeclFront

/-- A process that offers tokens, is told after each offer whether the token was taken, and finally
halts with a result. -/
inductive Emitter (α : Type) where
  | halt (result : α)
  | offer (token : Token) (resume : Bool → Emitter α)

namespace Emitter

variable {α β : Type}

/-- Run one process, then another that depends on the result of the first. -/
def bind : Emitter α → (α → Emitter β) → Emitter β
  | halt a, next => next a
  | offer t resume, next => offer t fun taken => (resume taken).bind next

/-- The tokens offered while every offer is taken. -/
def tokens : Emitter α → List Token
  | halt _ => []
  | offer t resume => t :: (resume true).tokens

/-- The result reached while every offer is taken. -/
def result : Emitter α → α
  | halt a => a
  | offer _ resume => (resume true).result

/-- Take the next token, if the process offers one; the rest is suspended until asked again. -/
def next? : Emitter α → Option (Token × Emitter α)
  | halt _ => none
  | offer t resume => some (t, resume true)

/-- The tokens that reach a reader who takes at most `n` and then goes away. -/
def take : Nat → Emitter α → List Token
  | n + 1, offer t resume => t :: take n (resume true)
  | _, _ => []

@[simp]
theorem bind_halt (a : α) (next : α → Emitter β) : (halt a).bind next = next a := rfl

@[simp]
theorem bind_offer (t : Token) (resume : Bool → Emitter α) (next : α → Emitter β) :
    (offer t resume).bind next = offer t fun taken => (resume taken).bind next := rfl

@[simp]
theorem tokens_halt (a : α) : (halt a).tokens = [] := rfl

@[simp]
theorem tokens_offer (t : Token) (resume : Bool → Emitter α) :
    (offer t resume).tokens = t :: (resume true).tokens := rfl

/-- The tokens of a sequence of two processes are those of the first, then those of the second. -/
theorem tokens_bind (e : Emitter α) (next : α → Emitter β) :
    (e.bind next).tokens = e.tokens ++ (next e.result).tokens := by
  induction e with
  | halt a => rfl
  | offer t resume ih => simp [ih, result]

/-- A reader who takes at most `n` tokens receives the first `n` of them. -/
theorem take_eq_take_tokens (n : Nat) (e : Emitter α) : e.take n = e.tokens.take n := by
  induction n generalizing e with
  | zero => cases e <;> rfl
  | succ n ih =>
    cases e with
    | halt a => rfl
    | offer t resume => simp [take, ih]

end Emitter

/-! ### Sinks -/

/-- A consumer of tokens: its state decides for each token whether it is taken. -/
class TokenSink (σ : Type) where
  /-- Whether the token is taken, and the state afterwards. -/
  receive : σ → Token → Bool × σ

/-- Run a process into a sink: its result, and the final state of the sink. -/
def Emitter.into {α σ : Type} [TokenSink σ] : Emitter α → σ → α × σ
  | halt a, sink => (a, sink)
  | offer t resume, sink =>
    let (taken, sink) := TokenSink.receive sink t
    (resume taken).into sink

/-- A sink that keeps what it takes, and takes no more once it holds `limit` tokens. Without a limit
it takes everything. -/
structure TokenStore where
  limit : Option Nat
  held : Array Token
deriving Repr

namespace TokenStore

/-- An empty store. -/
def empty (limit : Option Nat) : TokenStore :=
  ⟨limit, #[]⟩

/-- Whether the store has reached its limit. -/
def isFull (s : TokenStore) : Bool :=
  s.limit.any (· ≤ s.held.size)

instance : TokenSink TokenStore where
  receive s t := if s.isFull then (false, s) else (true, { s with held := s.held.push t })

end TokenStore

end DeclFront
