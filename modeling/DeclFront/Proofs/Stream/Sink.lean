import DeclFront.Proofs.Scan.Position
import DeclFront.Proofs.Scan.Refusal

/-!
# Scanning into any sink

A sink answers every token that it is sent, and its answers may depend on anything: it may refuse a
token and want the next one again. A scan does not ask it a second time. What reaches a sink is
therefore settled by its answers to the tokens of the drained scan, up to the first refusal:

* `TokenSink.answers` are these answers, for any list of tokens, and `TokenSink.patience` is how
  many of them come before the first refusal;
* `Emitter.HaltsWhenRefused.offers_eq`, `Emitter.HaltsWhenRefused.taken_eq`: a process that halts
  when refused offers the tokens up to the refused one, and those before it are taken;
* `TokenStore.held_of_haltsWhenRefused`: a store with a limit ends with as many tokens as it holds.

That a scan halts when refused is known of every one of its steps, so the rest is about processes
and sinks in general.
-/

namespace DeclFront

/-! ### The answers of a sink -/

namespace TokenSink

variable {σ : Type} [TokenSink σ]

/-- The answers of a sink to tokens that are sent to it one after another, taken or not. -/
def answers : σ → List Token → List Bool
  | _, [] => []
  | sink, t :: ts => (receive sink t).1 :: answers (receive sink t).2 ts

/-- The sink after tokens were sent to it one after another. -/
def after : σ → List Token → σ
  | sink, [] => sink
  | sink, t :: ts => after (receive sink t).2 ts

/-- How many tokens the sink takes before the first one that it refuses, or all of them. -/
def patience (sink : σ) (ts : List Token) : Nat :=
  (answers sink ts).idxOf false

/-- After a token that is taken, it depends on the others. -/
theorem patience_of_taken {sink : σ} {t : Token} (h : (receive sink t).1 = true)
    (ts : List Token) : patience sink (t :: ts) = patience (receive sink t).2 ts + 1 := by
  rw [patience, answers, h]
  exact List.idxOf_cons_ne _ (by decide)

/-- A token that is refused is the end of it. -/
theorem patience_of_refused {sink : σ} {t : Token} (h : (receive sink t).1 = false)
    (ts : List Token) : patience sink (t :: ts) = 0 := by
  rw [patience, answers, h]
  exact List.idxOf_cons_self

end TokenSink

open TokenSink

/-! ### Processes that halt when refused -/

namespace Emitter

variable {α σ : Type} [TokenSink σ] {P : α → Prop} {e : Emitter α}

/-- The tokens of a process that a sink takes. -/
def taken : Emitter α → σ → List Token
  | halt _, _ => []
  | offer t resume, sink =>
    (if (receive sink t).1 then [t] else []) ++
      (resume (receive sink t).1).taken (receive sink t).2

/-- **What is offered** ends with the first token that is refused. -/
theorem HaltsWhenRefused.offers_eq (h : e.HaltsWhenRefused P) (sink : σ) :
    e.offers sink = e.tokens.take (patience sink e.tokens + 1) := by
  induction e generalizing sink with
  | halt a => rfl
  | offer t resume ih =>
    obtain ⟨⟨a, -, hrefused⟩, htaken⟩ := h
    rw [offers, tokens_offer, List.take_succ_cons]
    cases hanswer : (receive sink t).1 with
    | true => rw [patience_of_taken hanswer, ih true htaken]
    | false =>
      -- the process has halted, so it offers nothing more, whatever the sink might say
      rw [patience_of_refused hanswer, hrefused, List.take_zero]
      rfl

/-- **What is taken** ends before the first token that is refused. -/
theorem HaltsWhenRefused.taken_eq (h : e.HaltsWhenRefused P) (sink : σ) :
    e.taken sink = e.tokens.take (patience sink e.tokens) := by
  induction e generalizing sink with
  | halt a => rfl
  | offer t resume ih =>
    obtain ⟨⟨a, -, hrefused⟩, htaken⟩ := h
    rw [taken, tokens_offer]
    cases hanswer : (receive sink t).1 with
    | true =>
      rw [patience_of_taken hanswer, List.take_succ_cons, ih true htaken, if_pos rfl]
      rfl
    | false =>
      -- the refused token is not taken, and no other is offered
      rw [patience_of_refused hanswer, hrefused, if_neg Bool.false_ne_true]
      rfl

/-- A process leaves the sink as it is after what was offered, and does nothing else to it. -/
theorem into_eq_after_offers (e : Emitter α) (sink : σ) :
    (e.into sink).2 = after sink (e.offers sink) := by
  induction e generalizing sink with
  | halt a => rfl
  | offer t resume ih => exact ih _ _

/-- **What the sink is left with**: it is as it would be, had it been sent the tokens up to the
first one that it refuses. -/
theorem HaltsWhenRefused.into_eq (h : e.HaltsWhenRefused P) (sink : σ) :
    (e.into sink).2 = after sink (e.tokens.take (patience sink e.tokens + 1)) := by
  rw [into_eq_after_offers, h.offers_eq]

end Emitter

/-- A store with a limit ends with the tokens that it held, and as many more as it has room for. -/
theorem TokenStore.held_of_haltsWhenRefused {α : Type} {P : α → Prop} {e : Emitter α}
    (h : e.HaltsWhenRefused P) (limit : Nat) (held : Array Token) :
    (e.into (⟨some limit, held⟩ : TokenStore)).2.held.toList =
      held.toList ++ e.tokens.take (limit - held.size) := by
  induction e generalizing held with
  | halt a =>
    rw [Emitter.tokens_halt, List.take_nil, List.append_nil]
    rfl
  | offer t resume ih =>
    obtain ⟨⟨a, -, hrefused⟩, htaken⟩ := h
    by_cases hfull : limit ≤ held.size
    · have hanswer : receive (⟨some limit, held⟩ : TokenStore) t = (false, ⟨some limit, held⟩) :=
        if_pos (decide_eq_true hfull)
      rw [Emitter.into, hanswer]
      dsimp only
      rw [hrefused, Nat.sub_eq_zero_of_le hfull, List.take_zero, List.append_nil]
      rfl
    · have hanswer : receive (⟨some limit, held⟩ : TokenStore) t =
          (true, ⟨some limit, held.push t⟩) :=
        if_neg fun hlimit => hfull (of_decide_eq_true hlimit)
      -- there was room for this token, and there is one place less for the rest
      have hroom : limit - held.size = (limit - (held.push t).size) + 1 := by
        rw [Array.size_push]
        omega
      rw [Emitter.into, hanswer]
      dsimp only
      rw [ih true htaken, Array.toList_push, hroom, Emitter.tokens_offer, List.take_succ_cons,
        List.append_assoc]
      rfl

/-! ### Scans -/

/-- **A refusal ends a scan, and costs nothing else.** Whatever a sink answers, the scan sends it
tokens of the drained scan in their order, up to the first one that it refuses and no further; those
before that one are taken, and the sink is left as it is after what was sent. So a sink with room
for `limit` tokens ends with the first `limit` of them. -/
theorem Scanner.sent_until_refused (source : String) (options : ScanOptions) :
    (∀ (σ : Type) [TokenSink σ] (sink : σ),
      (ofSource source options).run.offers sink =
        (lexWith options source).take (patience sink (lexWith options source) + 1) ∧
      (ofSource source options).run.taken sink =
        (lexWith options source).take (patience sink (lexWith options source)) ∧
      ((ofSource source options).run.into sink).2 =
        after sink ((lexWith options source).take (patience sink (lexWith options source) + 1))) ∧
    ∀ limit : Nat,
      ((ofSource source options).run.into (TokenStore.empty (some limit))).2.held.toList =
        (lexWith options source).take limit := by
  have hhalts := run_haltsWhenRefused (ofSource source options)
  refine ⟨fun σ _ sink => ⟨?_, ?_, ?_⟩, fun limit => ?_⟩
  · exact hhalts.offers_eq sink
  · exact hhalts.taken_eq sink
  · exact hhalts.into_eq sink
  · exact TokenStore.held_of_haltsWhenRefused hhalts limit #[]

/-- A store for one token takes the first of three, refuses the second, and is not sent the third.
-/
example :
    let scan := (Scanner.ofSource "a,b" ⟨false⟩).run
    let store := TokenStore.empty (some 1)
    scan.tokens.map Token.text = ["a", ",", "b"] ∧
      (scan.offers store).map Token.text = ["a", ","] ∧
      (scan.taken store).map Token.text = ["a"] ∧
      (scan.into store).2.held.toList.map Token.text = ["a"] := by
  decide +kernel

end DeclFront
