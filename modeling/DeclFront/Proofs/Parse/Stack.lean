import DeclFront.Proofs.Parse.FirstFailure
import Mathlib.Data.List.ReduceOption

/-!
# The input of a parser is a stack

A reader keeps what was put back apart from what its supply still holds, and tokens that the grammar
ignores may lie in both. Looking at a token moves it from one place to the other. None of this can
be told from outside: the answers of a reader are those of a plain stack of significant tokens
(`Reader.answers_eq`), whatever is read, looked at or put back, and in whatever order.

* `Reader.stack` is the stack for which a reader stands;
* `TokenCall.onStack` says what each call does to a stack and what it answers;
* `Reader.onStack_stack` is the step: a call to a reader is the same call to its stack;
* `TokenCall.after_reread`: tokens that are read and put back in reverse order leave the stack as it
  was.

A reader knows one thing that a stack does not, the furthest end of the tokens that it gave out. It
is a function of the answers alone (`Reader.furthest_after`).
-/

namespace DeclFront

/-! ### Calls and answers -/

/-- What can be asked of an input of tokens. -/
inductive TokenCall where
  | next
  | peek
  | putBack (t : Token)
deriving DecidableEq, Repr

namespace TokenCall

/-- What a call to a stack of tokens answers, and the stack that it leaves. To put a token back is
answered by nothing, and a token that the grammar ignores is not kept. -/
def onStack (stack : List Token) : TokenCall → Option Token × List Token
  | next => (stack.head?, stack.tail)
  | peek => (stack.head?, stack)
  | putBack t => (none, if t.isIgnorable then stack else t :: stack)

/-- What a call to a reader answers, and the reader that it leaves. -/
def onReader {σ : Type} [TokenSupply σ] (r : Reader σ) : TokenCall → Option Token × Reader σ
  | next => r.next
  | peek => r.peek
  | putBack t => (none, r.putBack t)

section Responding

variable {S S' : Type}

/-- The answers to calls that are made one after another. -/
def answers (respond : S → TokenCall → Option Token × S) : S → List TokenCall → List (Option Token)
  | _, [] => []
  | s, call :: calls => (respond s call).1 :: answers respond (respond s call).2 calls

/-- What calls that are made one after another leave. -/
def after (respond : S → TokenCall → Option Token × S) : S → List TokenCall → S
  | s, [] => s
  | s, call :: calls => after respond (respond s call).2 calls

/-- Calls can be made in two portions. -/
theorem after_append (respond : S → TokenCall → Option Token × S) (s : S)
    (calls more : List TokenCall) :
    after respond s (calls ++ more) = after respond (after respond s calls) more := by
  induction calls generalizing s with
  | nil => rfl
  | cons call calls ih => exact ih (respond s call).2

/-- **Simulation.** Where every call goes through a view of the state, so do all of them. -/
theorem answers_view {respond : S → TokenCall → Option Token × S}
    {respond' : S' → TokenCall → Option Token × S'} {view : S → S'}
    (hview : ∀ s call, respond' (view s) call = ((respond s call).1, view (respond s call).2))
    (s : S) (calls : List TokenCall) :
    answers respond' (view s) calls = answers respond s calls ∧
      after respond' (view s) calls = view (after respond s calls) := by
  -- along the calls; each leaves states that are views of one another
  induction calls generalizing s with
  | nil => exact ⟨rfl, rfl⟩
  | cons call calls ih =>
    obtain ⟨hanswers, hafter⟩ := ih (respond s call).2
    rw [answers, answers, after, after, hview]
    exact ⟨congrArg ((respond s call).1 :: ·) hanswers, hafter⟩

end Responding

end TokenCall

open TokenCall

variable {σ : Type} [TokenSupply σ]

namespace Reader

variable {r r' : Reader σ} {t : Token}

/-! ### The stack of a reader -/

/-- The tokens of any kind that a reader holds: those put back, then those of its supply. -/
def contents (r : Reader σ) : List Token :=
  r.backlog ++ TokenSupply.tokens r.supply

/-- The tokens that a reader will give out if nothing more is put back. -/
def stack (r : Reader σ) : List Token :=
  significant r.contents

/-- What is on the stack matters to the grammar. -/
theorem isIgnorable_of_mem_stack (ht : t ∈ r.stack) : t.isIgnorable = false := by
  have hkept := (List.mem_filter.1 ht).2
  simpa using hkept

/-- Where nothing can be drawn, nothing is held. -/
theorem contents_of_draw?_eq_none (h : r.draw? = none) : r.contents = [] := by
  unfold draw? at h
  split at h
  · cases h
  · next hbacklog =>
    split at h
    · cases h
    · next hsupply =>
      rw [contents, hbacklog, TokenSupply.tokens_of_next?_eq_none hsupply]
      rfl

/-- A token that is drawn was the first one held. Nothing else changes. -/
theorem contents_of_draw? (h : r.draw? = some (t, r')) :
    r.contents = t :: r'.contents ∧ r'.furthest = r.furthest ∧ r'.openBodies = r.openBodies := by
  unfold draw? at h
  split at h
  -- from the tokens put back, or from the supply
  · next u backlog hbacklog =>
    cases h
    refine ⟨?_, rfl, rfl⟩
    rw [contents, hbacklog]
    rfl
  · next hbacklog =>
    split at h
    · next u supply hsupply =>
      cases h
      refine ⟨?_, rfl, rfl⟩
      rw [contents, contents, hbacklog, TokenSupply.tokens_of_next?_eq_some hsupply]
      rfl
    · cases h

/-- **To read is to pop**, and to note where the token ends. -/
theorem next_eq (r : Reader σ) :
    r.next.1 = r.stack.head? ∧ r.next.2.stack = r.stack.tail ∧
      r.next.2.furthest = r.next.1.elim r.furthest (max r.furthest ·.span.stop) := by
  -- along the tokens that are skipped, none of which is on the stack
  fun_induction next r with
  | case1 r hdraw =>
    rw [stack, contents_of_draw?_eq_none hdraw]
    exact ⟨rfl, rfl, rfl⟩
  | case2 r t r' hdraw _ hignorable ih =>
    obtain ⟨hcontents, hfurthest, -⟩ := contents_of_draw? hdraw
    have hstack : r.stack = r'.stack := by
      rw [stack, hcontents]
      exact List.filter_cons_of_neg (by simp [hignorable])
    rwa [hstack, ← hfurthest]
  | case3 r t r' hdraw _ hkept =>
    obtain ⟨hcontents, hfurthest, -⟩ := contents_of_draw? hdraw
    have hstack : r.stack = t :: r'.stack := by
      rw [stack, hcontents]
      exact List.filter_cons_of_pos (by simp [hkept])
    rw [hstack]
    refine ⟨rfl, rfl, ?_⟩
    show max r'.furthest t.span.stop = max r.furthest t.span.stop
    rw [hfurthest]

/-- To put a token back is to push it, unless the grammar ignores it. -/
theorem stack_putBack (r : Reader σ) (t : Token) :
    (r.putBack t).stack = if t.isIgnorable then r.stack else t :: r.stack := by
  show significant (t :: r.contents) = _
  -- what the grammar ignores is put back too, but it is not on the stack
  cases ht : t.isIgnorable with
  | true =>
    rw [if_pos rfl]
    exact List.filter_cons_of_neg (by simp [ht])
  | false =>
    rw [if_neg Bool.false_ne_true]
    exact significant_cons ht r.contents

/-- **To look is to look at the top.** The token is read and put back, so it is noted too. -/
theorem peek_eq (r : Reader σ) :
    r.peek.1 = r.stack.head? ∧ r.peek.2.stack = r.stack ∧
      r.peek.2.furthest = r.peek.1.elim r.furthest (max r.furthest ·.span.stop) := by
  obtain ⟨hanswer, hstack, hfurthest⟩ := next_eq r
  unfold peek
  cases hnext : r.next with
  | mk token r' =>
    rw [hnext] at hanswer hstack hfurthest
    cases token with
    | none =>
      -- there was nothing to look at
      have hnil : r.stack = [] := List.head?_eq_none_iff.1 hanswer.symm
      refine ⟨hanswer, ?_, hfurthest⟩
      show r'.stack = r.stack
      rw [hstack, hnil]
      rfl
    | some t =>
      obtain ⟨rest, hcons⟩ := List.head?_eq_some_iff.1 hanswer.symm
      have ht : t.isIgnorable = false := by
        apply isIgnorable_of_mem_stack (r := r)
        rw [hcons]
        exact List.mem_cons_self
      refine ⟨hanswer, ?_, hfurthest⟩
      show (r'.putBack t).stack = r.stack
      rw [stack_putBack, ht, if_neg Bool.false_ne_true, hstack, hcons]
      rfl

/-! ### One call and many -/

/-- **A call to a reader is a call to its stack.** -/
theorem onStack_stack (r : Reader σ) (call : TokenCall) :
    call.onStack r.stack = ((call.onReader r).1, (call.onReader r).2.stack) := by
  cases call with
  | next =>
    obtain ⟨hanswer, hstack, -⟩ := next_eq r
    show (r.stack.head?, r.stack.tail) = (r.next.1, r.next.2.stack)
    rw [hanswer, hstack]
  | peek =>
    obtain ⟨hanswer, hstack, -⟩ := peek_eq r
    show (r.stack.head?, r.stack) = (r.peek.1, r.peek.2.stack)
    rw [hanswer, hstack]
  | putBack t =>
    show (none, _) = (none, (r.putBack t).stack)
    rw [stack_putBack]

/-- What a call answers is noted. -/
theorem furthest_onReader (r : Reader σ) (call : TokenCall) :
    (call.onReader r).2.furthest =
      (call.onReader r).1.elim r.furthest (max r.furthest ·.span.stop) := by
  cases call with
  | next => exact (next_eq r).2.2
  | peek => exact (peek_eq r).2.2
  | putBack t => rfl

/-- **The answers of a reader are those of its stack.** -/
theorem answers_eq (r : Reader σ) (calls : List TokenCall) :
    answers onReader r calls = answers onStack r.stack calls :=
  (answers_view onStack_stack r calls).1.symm

/-- After any calls a reader holds the stack that they make of its own. -/
theorem stack_after (r : Reader σ) (calls : List TokenCall) :
    (after onReader r calls).stack = after onStack r.stack calls :=
  (answers_view onStack_stack r calls).2.symm

/-- After any calls, a reader knows the furthest end of what it has answered. -/
theorem furthest_after (r : Reader σ) (calls : List TokenCall) :
    (after onReader r calls).furthest =
      (answers onReader r calls).reduceOption.foldl (fun n t => max n t.span.stop) r.furthest := by
  induction calls generalizing r with
  | nil => rfl
  | cons call calls ih =>
    -- the first call is noted, and the others on top of it
    have hcall := furthest_onReader r call
    rw [after, answers, ih]
    cases hanswer : (call.onReader r).1 with
    | none =>
      rw [hanswer] at hcall
      rw [List.reduceOption_cons_of_none, hcall]
      rfl
    | some t =>
      rw [hanswer] at hcall
      rw [List.reduceOption_cons_of_some, List.foldl_cons, hcall]
      rfl

end Reader

/-! ### Reading again -/

namespace TokenCall

/-- Read `k` tokens, and put back what was read, the last token first. -/
def reread {S : Type} (respond : S → TokenCall → Option Token × S) (s : S) (k : Nat) :
    List TokenCall :=
  .replicate k next ++ (answers respond s (.replicate k next)).reduceOption.reverse.map putBack

/-- To read from a stack and put everything back leaves it as it was. -/
theorem after_reread {stack : List Token} (hstack : ∀ t ∈ stack, t.isIgnorable = false) (k : Nat) :
    after onStack stack (reread onStack stack k) = stack := by
  -- the token that is read first is put back last, around what is known of the others
  induction k generalizing stack with
  | zero => rfl
  | succ k ih =>
    cases stack with
    | nil =>
      have hnil : after onStack [] (reread onStack [] k) = [] := ih hstack
      exact hnil
    | cons t rest =>
      have ht : t.isIgnorable = false := hstack t List.mem_cons_self
      have hrest : after onStack rest (reread onStack rest k) = rest :=
        ih fun u hu => hstack u (List.mem_cons_of_mem t hu)
      have hsplit : reread onStack (t :: rest) (k + 1) =
          next :: (reread onStack rest k ++ [putBack t]) := by
        show next :: (List.replicate k next ++
          (some t :: answers onStack rest (.replicate k next)).reduceOption.reverse.map putBack) = _
        rw [List.reduceOption_cons_of_some, List.reverse_cons, List.map_append,
          ← List.append_assoc]
        rfl
      calc after onStack (t :: rest) (reread onStack (t :: rest) (k + 1))
          = after onStack rest (reread onStack rest k ++ [putBack t]) := by rw [hsplit]; rfl
        _ = after onStack rest [putBack t] := by rw [after_append, hrest]
        _ = t :: rest := by
          show (if t.isIgnorable then rest else t :: rest) = t :: rest
          rw [ht, if_neg Bool.false_ne_true]

end TokenCall

namespace Reader

theorem stack_ofSupply (supply : σ) :
    (ofSupply supply).stack = significant (TokenSupply.tokens supply) := rfl

/-- To read from a reader and put everything back makes no difference to what is read later. -/
theorem answers_after_reread (r : Reader σ) (k : Nat) (later : List TokenCall) :
    answers onReader (after onReader r (reread onReader r k)) later = answers onReader r later := by
  have hsame : reread onReader r k = reread onStack r.stack k := by
    rw [reread, reread, answers_eq]
  have hstack : (after onReader r (reread onReader r k)).stack = r.stack := by
    rw [stack_after, hsame]
    exact after_reread (fun _ => isIgnorable_of_mem_stack) k
  rw [answers_eq, answers_eq, hstack]

/-- **The input of a parser is a stack.** Whatever is asked of a reader over a list of tokens, it
answers as a stack does on which the significant tokens lie at the start. To read any number of
tokens and put them back, the last one first, makes no difference to what is read later. And an
error about the end of the input is placed at the furthest end of the tokens that were answered. -/
theorem reads_as_stack (ts : List Token) (calls : List TokenCall) :
    answers onReader (ofSupply ts) calls = answers onStack (significant ts) calls ∧
      (∀ (k : Nat) (later : List TokenCall),
        answers onReader
            (after onReader (after onReader (ofSupply ts) calls)
              (reread onReader (after onReader (ofSupply ts) calls) k)) later =
          answers onReader (after onReader (ofSupply ts) calls) later) ∧
      (after onReader (ofSupply ts) calls).spanOf none =
        .point (furthestEnd (answers onReader (ofSupply ts) calls).reduceOption) := by
  refine ⟨?_, fun k later => answers_after_reread _ k later, ?_⟩
  · rw [answers_eq, stack_ofSupply, TokenSupply.tokens_list]
  · show Span.point (after onReader (ofSupply ts) calls).furthest = _
    rw [furthest_after]
    rfl

/-- A comment that is put back is never seen, and a token that was never read is. -/
example : answers onReader
      (ofSupply ([⟨.comment, "//", ⟨0, 2⟩⟩, ⟨.identifier, "x", ⟨3, 4⟩⟩] : List Token))
      [.peek, .putBack ⟨.comment, "//", ⟨0, 2⟩⟩, .putBack ⟨.number, "1", ⟨9, 9⟩⟩, .next, .next,
        .next] =
    [some ⟨.identifier, "x", ⟨3, 4⟩⟩, none, none, some ⟨.number, "1", ⟨9, 9⟩⟩,
      some ⟨.identifier, "x", ⟨3, 4⟩⟩, none] := by
  decide +kernel

end Reader

end DeclFront
