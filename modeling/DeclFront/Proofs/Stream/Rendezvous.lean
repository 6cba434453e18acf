import DeclFront.Proofs.Parse.Fold
import DeclFront.Proofs.Scan.Refusal
import Mathlib.Logic.Relation

/-!
# Scanning while somebody reads

A scan can run beside its consumer, as two processes joined by a channel that holds nothing: a token
leaves the scanner only at the moment in which the consumer takes it. This module is about every
order in which the two can move.

The scanner works, offers a token and waits, or has finished and let go of its end of the channel.
The consumer works, waits for a token, or has hung up; having hung up, it waits until the scanner
has finished and only then returns. A `Pipeline` is a pair of such positions with the tokens handed
over so far, and `Pipeline.Step` lists the moves, one for each thing that either side, or both
together, can do.

* `Pipeline.Sound` is the invariant: what has been received and what the scanner still holds make up
  the drained scan, until the consumer hangs up; `Sound.step` is its step lemma.
* `Sound.complete_or_step`: no reachable state is stuck.
* `Pipeline.acc_of_sound`: a consumer that hangs up at the end of the stream cannot run forever.
* `streamed_eq_drained`: so reading a stream comes to the same as reading the drained list, in every
  run, and the parser in particular returns what it makes of the list.
-/

namespace DeclFront

variable {κ β : Type}

/-! ### Consumers -/

/-- What a consumer does next: hang up with a result, or wait for a token. It goes on from the
token, or from none at the end of the stream. -/
inductive Demand (κ β : Type) where
  | stop (result : β)
  | read (resume : Option Token → κ)

/-- The consumer, in the state `c`, comes to the result `b` by reading off the list `ts`. -/
inductive Drains (demand : κ → Demand κ β) : κ → List Token → β → Prop
  | stop {c : κ} {ts : List Token} {b : β} (h : demand c = .stop b) : Drains demand c ts b
  | next {c : κ} {t : Token} {ts : List Token} {b : β} {resume : Option Token → κ}
      (h : demand c = .read resume) (rest : Drains demand (resume (some t)) ts b) :
      Drains demand c (t :: ts) b
  | exhausted {c : κ} {b : β} {resume : Option Token → κ} (h : demand c = .read resume)
      (rest : Drains demand (resume none) [] b) : Drains demand c [] b

/-- A consumer that hangs up once it is told of the end of the stream. -/
def Attentive (demand : κ → Demand κ β) : Prop :=
  ∀ c resume, demand c = .read resume → ∃ b, demand (resume none) = .stop b

/-! ### The two processes -/

/-- Where the scanner stands. -/
inductive Sender where
  /-- At work, with `rest` still to do. -/
  | working (rest : Emitter Scanner)
  /-- Waiting for somebody to take `token`. -/
  | sending (token : Token) (resume : Bool → Emitter Scanner)
  /-- Finished: nothing more can come. -/
  | finished

/-- Where the consumer stands. -/
inductive Receiver (κ β : Type) where
  /-- At work, in the state `state`. -/
  | working (state : κ)
  /-- Waiting for a token. -/
  | receiving (resume : Option Token → κ)
  /-- Hung up with `result`, and waiting for the scanner to finish. -/
  | joining (result : β)
  /-- Returned. -/
  | returned (result : β)

namespace Sender

/-- The token that is offered and not yet taken. -/
def offered : Sender → List Token
  | sending t _ => [t]
  | _ => []

/-- The tokens to come, the offered one included, while everything is taken. -/
def ahead : Sender → List Token
  | working e => e.tokens
  | sending t resume => t :: (resume true).tokens
  | finished => []

/-- Wherever the scanner is refused, it halts at once. -/
def Obedient : Sender → Prop
  | working e => e.HaltsWhenRefused fun _ => True
  | sending t resume => (Emitter.offer t resume).HaltsWhenRefused fun _ => True
  | finished => True

theorem offered_isPrefix (p : Sender) : p.offered <+: p.ahead := by
  cases p with
  | working e => exact List.nil_prefix
  | sending t resume => exact ⟨(resume true).tokens, rfl⟩
  | finished => exact List.nil_prefix

theorem length_offered_le (p : Sender) : p.offered.length ≤ 1 := by
  cases p with
  | working e => exact Nat.zero_le 1
  | sending t resume => exact Nat.le_refl 1
  | finished => exact Nat.zero_le 1

/-- The moves of the scanner, whatever the consumer does. -/
inductive Move : Sender → Sender → Prop
  | offer {t : Token} {resume : Bool → Emitter Scanner} :
      Move (working (.offer t resume)) (sending t resume)
  | answer {t : Token} {resume : Bool → Emitter Scanner} (taken : Bool) :
      Move (sending t resume) (working (resume taken))
  | finish {s : Scanner} : Move (working (.halt s)) finished

/-- The scanner cannot move forever. -/
theorem acc_move (p : Sender) : Acc (fun q p => Move p q) p := by
  have hfinished : Acc (fun q p => Move p q) finished := by
    refine ⟨_, fun q hq => ?_⟩
    cases hq
  -- an offer is two moves, and the process after either answer is a part of the process before
  have hworking : ∀ e, Acc (fun q p => Move p q) (working e) := by
    intro e
    induction e with
    | halt s =>
      refine ⟨_, fun q hq => ?_⟩
      cases hq
      exact hfinished
    | offer t resume ih =>
      refine ⟨_, fun q hq => ?_⟩
      cases hq
      refine ⟨_, fun q hq => ?_⟩
      cases hq with
      | answer taken => exact ih taken
  cases p with
  | working e => exact hworking e
  | sending t resume =>
    refine ⟨_, fun q hq => ?_⟩
    cases hq with
    | answer taken => exact hworking (resume taken)
  | finished => exact hfinished

end Sender

/-- A scan beside its consumer: where the two stand, and the tokens handed over so far. -/
structure Pipeline (κ β : Type) where
  sender : Sender
  receiver : Receiver κ β
  received : List Token

namespace Pipeline

/-- A scan that has done nothing yet, beside a consumer in the state `c`. -/
def start (options : ScanOptions) (source : String) (c : κ) : Pipeline κ β :=
  ⟨.working (Scanner.ofSource source options).run, .working c, []⟩

/-- One move of either process, or of both together. -/
inductive Step (demand : κ → Demand κ β) : Pipeline κ β → Pipeline κ β → Prop
  /-- The scanner comes to its next token. -/
  | offer {t : Token} {resume : Bool → Emitter Scanner} {r : Receiver κ β} {ts : List Token} :
      Step demand ⟨.working (.offer t resume), r, ts⟩ ⟨.sending t resume, r, ts⟩
  /-- The scanner finishes and lets go of the channel. -/
  | finish {s : Scanner} {r : Receiver κ β} {ts : List Token} :
      Step demand ⟨.working (.halt s), r, ts⟩ ⟨.finished, r, ts⟩
  /-- The consumer asks for a token. -/
  | ask {p : Sender} {c : κ} {resume : Option Token → κ} {ts : List Token}
      (h : demand c = .read resume) : Step demand ⟨p, .working c, ts⟩ ⟨p, .receiving resume, ts⟩
  /-- A token is handed over. -/
  | deliver {t : Token} {resume : Bool → Emitter Scanner} {take : Option Token → κ}
      {ts : List Token} :
      Step demand ⟨.sending t resume, .receiving take, ts⟩
        ⟨.working (resume true), .working (take (some t)), ts ++ [t]⟩
  /-- The consumer learns that no token will come. -/
  | exhaust {take : Option Token → κ} {ts : List Token} :
      Step demand ⟨.finished, .receiving take, ts⟩ ⟨.finished, .working (take none), ts⟩
  /-- The consumer is done and hangs up. -/
  | hangUp {p : Sender} {c : κ} {b : β} {ts : List Token} (h : demand c = .stop b) :
      Step demand ⟨p, .working c, ts⟩ ⟨p, .joining b, ts⟩
  /-- The scanner learns that nobody will take its token. -/
  | refuse {t : Token} {resume : Bool → Emitter Scanner} {b : β} {ts : List Token} :
      Step demand ⟨.sending t resume, .joining b, ts⟩ ⟨.working (resume false), .joining b, ts⟩
  /-- The consumer returns once the scanner has finished. -/
  | join {b : β} {ts : List Token} :
      Step demand ⟨.finished, .joining b, ts⟩ ⟨.finished, .returned b, ts⟩

/-- Some run leads from one state to the other. -/
def Reaches (demand : κ → Demand κ β) : Pipeline κ β → Pipeline κ β → Prop :=
  Relation.ReflTransGen (Step demand)

/-- The consumer has let go of its end of the channel. -/
def HungUp (x : Pipeline κ β) : Prop :=
  ∃ b, x.receiver = .joining b ∨ x.receiver = .returned b

/-- Both processes have come to their end. -/
def Complete (x : Pipeline κ β) : Prop :=
  x.sender = .finished ∧ ∃ b, x.receiver = .returned b

variable {demand : κ → Demand κ β} {c₀ : κ} {ts : List Token} {x y : Pipeline κ β}

/-! ### The invariant -/

/-- What the tokens that came and are to come mean to the consumer, measured by what it would have
made of the list `ts` from the state `c₀` on. -/
def Agrees (demand : κ → Demand κ β) (c₀ : κ) (ts came ahead : List Token) : Receiver κ β → Prop
  -- while the consumer listens nothing is lost, and what it makes of the rest decides its result
  | .working c => came ++ ahead = ts ∧ ∀ b, Drains demand c ahead b → Drains demand c₀ ts b
  | .receiving resume => came ++ ahead = ts ∧
      ∃ c, demand c = .read resume ∧ ∀ b, Drains demand c ahead b → Drains demand c₀ ts b
  -- afterwards its result is settled, and what it did not take is of no concern
  | .joining b => came ++ ahead <+: ts ∧ Drains demand c₀ ts b
  | .returned b => came ++ ahead <+: ts ∧ Drains demand c₀ ts b

/-- What holds in every reachable state. -/
structure Sound (demand : κ → Demand κ β) (c₀ : κ) (ts : List Token) (x : Pipeline κ β) : Prop where
  obedient : x.sender.Obedient
  agrees : Agrees demand c₀ ts x.received x.sender.ahead x.receiver
  /-- The consumer returns only after the scanner has finished. -/
  joined : ∀ b, x.receiver = .returned b → x.sender = .finished

theorem sound_start (options : ScanOptions) (source : String) :
    (start options source c₀).Sound demand c₀ (lexWith options source) where
  obedient := Scanner.run_haltsWhenRefused _
  agrees := ⟨rfl, fun _ h => h⟩
  joined b h := by cases h

/-- **One move preserves the invariant.** -/
theorem Sound.step (hx : x.Sound demand c₀ ts) (h : Step demand x y) : y.Sound demand c₀ ts := by
  obtain ⟨hobedient, hagrees, hjoined⟩ := hx
  cases h with
  | offer =>
    -- a scanner that offers has not finished, so nobody has returned
    refine ⟨hobedient, hagrees, fun b hb => ?_⟩
    cases hjoined b hb
  | finish => exact ⟨trivial, hagrees, fun _ _ => rfl⟩
  | @ask p c resume received hread =>
    refine ⟨hobedient, ⟨hagrees.1, c, hread, hagrees.2⟩, fun b hb => ?_⟩
    cases hb
  | @deliver t resume take received =>
    obtain ⟨hcame, c, hread, hdrains⟩ := hagrees
    refine ⟨hobedient.2, ⟨?_, fun b hb => hdrains b (.next hread hb)⟩, fun b hb => ?_⟩
    · rw [← hcame, List.append_assoc]
      rfl
    · cases hb
  | exhaust =>
    obtain ⟨hcame, c, hread, hdrains⟩ := hagrees
    exact ⟨trivial, ⟨hcame, fun b hb => hdrains b (.exhausted hread hb)⟩, fun _ _ => rfl⟩
  | @hangUp p c b received hstop =>
    obtain ⟨hcame, hdrains⟩ := hagrees
    -- from here on the equation is only an inequality: what is ahead may never be taken
    refine ⟨hobedient, ⟨?_, hdrains b (.stop hstop)⟩, fun b hb => ?_⟩
    · exact hcame ▸ List.prefix_refl ts
    · cases hb
  | @refuse t resume b received =>
    obtain ⟨⟨s, -, hhalt⟩, -⟩ := hobedient
    -- The refused scanner halts, so from here on nothing is ahead.
    rw [hhalt]
    refine ⟨trivial, ⟨?_, hagrees.2⟩, fun b hb => ?_⟩
    · have hshorter : received ++ [] <+: received ++ Sender.ahead (.sending t resume) :=
        List.prefix_append_right_inj received |>.2 List.nil_prefix
      exact hshorter.trans hagrees.1
    · cases hb
  | join => exact ⟨trivial, hagrees, fun _ _ => rfl⟩

/-- **Every run preserves the invariant.** -/
theorem Sound.reaches (hx : x.Sound demand c₀ ts) (h : Reaches demand x y) :
    y.Sound demand c₀ ts := by
  induction h with
  | refl => exact hx
  | tail _ hstep ih => exact ih.step hstep

/-! ### What the invariant gives -/

/-- What has been received, and the token on offer, are the first tokens of the list. -/
theorem Sound.isPrefix (hx : x.Sound demand c₀ ts) : x.received ++ x.sender.offered <+: ts := by
  have hahead : x.received ++ x.sender.offered <+: x.received ++ x.sender.ahead :=
    List.prefix_append_right_inj x.received |>.2 x.sender.offered_isPrefix
  have hagrees := hx.agrees
  cases hr : x.receiver with
  | working c =>
    rw [hr] at hagrees
    rwa [hagrees.1] at hahead
  | receiving resume =>
    rw [hr] at hagrees
    rwa [hagrees.1] at hahead
  | joining b =>
    rw [hr] at hagrees
    exact hahead.trans hagrees.1
  | returned b =>
    rw [hr] at hagrees
    exact hahead.trans hagrees.1

/-- A consumer that still listens when the scanner has finished has received everything. -/
theorem Sound.received_eq (hx : x.Sound demand c₀ ts) (hlistens : ¬ x.HungUp)
    (hfinished : x.sender = .finished) : x.received = ts := by
  have hagrees := hx.agrees
  rw [hfinished] at hagrees
  cases hr : x.receiver with
  | working c =>
    rw [hr] at hagrees
    rw [← hagrees.1]
    exact (List.append_nil _).symm
  | receiving resume =>
    rw [hr] at hagrees
    rw [← hagrees.1]
    exact (List.append_nil _).symm
  | joining b => exact absurd ⟨b, .inl hr⟩ hlistens
  | returned b => exact absurd ⟨b, .inr hr⟩ hlistens

/-- **No reachable state is stuck** before both processes have come to their end. -/
theorem Sound.complete_or_step (hx : x.Sound demand c₀ ts) : x.Complete ∨ ∃ y, Step demand x y := by
  obtain ⟨p, r, received⟩ := x
  cases p with
  | working e =>
    cases e with
    | halt s => exact .inr ⟨_, .finish⟩
    | offer t resume => exact .inr ⟨_, .offer⟩
  | sending t resume =>
    cases r with
    | working c =>
      cases hc : demand c with
      | stop b => exact .inr ⟨_, .hangUp hc⟩
      | read resume => exact .inr ⟨_, .ask hc⟩
    | receiving take => exact .inr ⟨_, .deliver⟩
    -- The consumer has hung up before it waits for the scanner, so the scanner is told.
    | joining b => exact .inr ⟨_, .refuse⟩
    | returned b => cases hx.joined b rfl
  | finished =>
    cases r with
    | working c =>
      cases hc : demand c with
      | stop b => exact .inr ⟨_, .hangUp hc⟩
      | read resume => exact .inr ⟨_, .ask hc⟩
    | receiving take => exact .inr ⟨_, .exhaust⟩
    | joining b => exact .inr ⟨_, .join⟩
    | returned b => exact .inl ⟨rfl, b, rfl⟩

/-- The result with which a consumer returns is the one it draws from the list. -/
theorem Sound.drains (hx : x.Sound demand c₀ ts) {b : β} (hb : x.receiver = .returned b) :
    Drains demand c₀ ts b := by
  have hagrees := hx.agrees
  rw [hb] at hagrees
  exact hagrees.2

/-- A scanner that is refused after the consumer hung up has nothing left to do but to finish. -/
theorem Sound.halts (hx : x.Sound demand c₀ ts) (hhung : x.HungUp) {t : Token}
    {resume : Bool → Emitter Scanner} (hsending : x.sender = .sending t resume)
    (h : Step demand x y) : ∃ s, y.sender = .working (.halt s) := by
  obtain ⟨b, hr⟩ := hhung
  cases h with
  | offer => cases hsending
  | finish => cases hsending
  | ask => rcases hr with hr | hr <;> cases hr
  | deliver => rcases hr with hr | hr <;> cases hr
  | exhaust => cases hsending
  | hangUp => rcases hr with hr | hr <;> cases hr
  | refuse =>
    -- the only move of a scanner that waits where nobody will take its token
    obtain ⟨⟨s, -, hhalt⟩, -⟩ := hx.obedient
    exact ⟨s, congrArg Sender.working hhalt⟩
  | join => cases hsending

/-! ### After the consumer has hung up -/

/-- Nothing is handed over after the consumer has hung up, and it does not come back. -/
theorem HungUp.step (hx : x.HungUp) (h : Step demand x y) :
    y.HungUp ∧ y.received = x.received := by
  obtain ⟨b, hr⟩ := hx
  cases h with
  | offer => exact ⟨⟨b, hr⟩, rfl⟩
  | finish => exact ⟨⟨b, hr⟩, rfl⟩
  | ask => rcases hr with hr | hr <;> cases hr
  | deliver => rcases hr with hr | hr <;> cases hr
  | exhaust => rcases hr with hr | hr <;> cases hr
  | hangUp => rcases hr with hr | hr <;> cases hr
  | refuse => exact ⟨⟨b, hr⟩, rfl⟩
  | @join b' => exact ⟨⟨b', .inr rfl⟩, rfl⟩

theorem HungUp.reaches (hx : x.HungUp) (h : Reaches demand x y) :
    y.HungUp ∧ y.received = x.received := by
  induction h with
  | refl => exact ⟨hx, rfl⟩
  | tail _ hstep ih =>
    obtain ⟨hhung, hreceived⟩ := ih.1.step hstep
    exact ⟨hhung, hreceived.trans ih.2⟩

/-! ### Every run ends -/

/-- How many moves a consumer can still make while the scanner stands still. -/
def rank (demand : κ → Demand κ β) : Receiver κ β → Nat
  | .working c =>
    match demand c with
    | .stop _ => 2
    | .read _ => 4
  | .receiving _ => 3
  | .joining _ => 1
  | .returned _ => 0

theorem rank_of_stop {c : κ} {b : β} (h : demand c = .stop b) : rank demand (.working c) = 2 := by
  rw [rank, h]

theorem rank_of_read {c : κ} {resume : Option Token → κ} (h : demand c = .read resume) :
    rank demand (.working c : Receiver κ β) = 4 := by
  rw [rank, h]

/-- In each move the scanner moves, or it stands still and the consumer comes closer to its end. -/
theorem Sound.descends (hx : x.Sound demand c₀ ts) (hattentive : Attentive demand)
    (h : Step demand x y) : Sender.Move x.sender y.sender ∨
      (y.sender = x.sender ∧ rank demand y.receiver < rank demand x.receiver) := by
  cases h with
  | offer => exact .inl .offer
  | finish => exact .inl .finish
  | ask hread =>
    refine .inr ⟨rfl, ?_⟩
    rw [rank_of_read hread]
    exact Nat.lt_succ_self 3
  | deliver => exact .inl (.answer true)
  | exhaust =>
    -- told of the end, an attentive consumer does not ask again
    obtain ⟨-, c, hread, -⟩ := hx.agrees
    obtain ⟨b, hstop⟩ := hattentive c _ hread
    refine .inr ⟨rfl, ?_⟩
    rw [rank_of_stop hstop]
    exact Nat.lt_succ_self 2
  | hangUp hstop =>
    refine .inr ⟨rfl, ?_⟩
    rw [rank_of_stop hstop]
    exact Nat.lt_succ_self 1
  | refuse => exact .inl (.answer false)
  | join => exact .inr ⟨rfl, Nat.lt_succ_self 0⟩

/-- **No run goes on forever** beside a consumer that hangs up at the end of the stream. -/
theorem acc_of_sound (hattentive : Attentive demand) (hx : x.Sound demand c₀ ts) :
    Acc (fun y x => Step demand x y) x := by
  -- By the moves of the scanner first, and by those of the consumer while the scanner stands still.
  obtain ⟨p, hp⟩ : ∃ p, p = x.sender := ⟨_, rfl⟩
  induction Sender.acc_move p generalizing x with
  | intro p _ ihSender =>
    obtain ⟨n, hn⟩ : ∃ n, n = rank demand x.receiver := ⟨_, rfl⟩
    induction n using Nat.strongRecOn generalizing x with
    | _ n ihRank =>
      refine ⟨_, fun y hy => ?_⟩
      obtain hmove | ⟨hsender, hrank⟩ := hx.descends hattentive hy
      · exact ihSender y.sender (hp ▸ hmove) (hx.step hy) rfl
      · exact ihRank _ (hn ▸ hrank) (hx.step hy) (hp.trans hsender.symm) rfl

/-- So from every reachable state both processes come to their end. -/
theorem Sound.exists_complete (hx : x.Sound demand c₀ ts) (hattentive : Attentive demand) :
    ∃ y, Reaches demand x y ∧ y.Complete := by
  induction acc_of_sound hattentive hx with
  | intro x _ ih =>
    obtain hcomplete | ⟨y, hy⟩ := hx.complete_or_step
    · exact ⟨x, .refl, hcomplete⟩
    · obtain ⟨z, hz, hcomplete⟩ := ih y hy (hx.step hy)
      exact ⟨z, .head hy hz, hcomplete⟩

end Pipeline

/-! ### The parser as a consumer -/

namespace Progress

/-- The parser reads until its outcome is decided, by a token or by the end of the stream. -/
def demand : Progress Unit → Demand (Progress Unit) (Except SyntaxError Scope)
  | .done outcome _ => .stop outcome
  | .more m => .read fun
    | some t => (Progress.more m).push t
    | none => m.onToken .unit m.reader none

theorem attentive_demand : Attentive demand := by
  intro p resume hread
  cases p with
  | done outcome r => cases hread
  | more m =>
    obtain rfl := Demand.read.inj hread
    cases h : m.onToken .unit m.reader none with
    | done outcome r => exact ⟨outcome, rfl⟩
    | more m' => exact absurd h (Machine.onToken_none_ne_more m m' .unit m.reader)

/-- What the parser draws from a list is the fold of the list, concluded. -/
theorem eq_conclude_of_drains {p : Progress Unit} {ts : List Token} {b : Except SyntaxError Scope}
    (hp : p.Settled) (h : Drains demand p ts b) : b = (ts.foldl push p).conclude := by
  induction h with
  | @stop p ts b hstop =>
    cases p with
    | done outcome r =>
      obtain rfl := Demand.stop.inj hstop
      rw [foldl_push_done]
      rfl
    | more m => cases hstop
  | @next p t ts b resume hread rest ih =>
    cases p with
    | done outcome r => cases hread
    | more m =>
      obtain rfl := Demand.read.inj hread
      exact ih (hp.push t)
  | @exhausted p b resume hread rest ih =>
    cases p with
    | done outcome r => cases hread
    | more m =>
      obtain rfl := Demand.read.inj hread
      -- at the end of the stream the parser decides, and is settled because it is over
      obtain ⟨r, hdone⟩ := conclude_more (hp m rfl)
      have hsettled : Settled (.done (conclude (.more m)) r) := by
        intro m' hm'
        cases hm'
      have hb := ih (hdone ▸ hsettled)
      rw [hdone] at hb
      exact hb

end Progress

/-- **A streamed scan comes to the same as a drained one.** Beside any consumer and in every state
that some order of moves can lead to:

* what has been received, and the token on offer, are the first tokens of the drained scan, and at
  most one is on offer; a consumer that is still there when the scanner has finished has them all;
* once the consumer has hung up nothing is handed over, and the scanner halts at its next token;
* somebody can move, or both have come to their end, and the consumer then returns with what it
  draws from the drained list.

Beside the parser, moreover, no run goes on forever, every run can be completed, and a run that is
complete has returned what the parser makes of the list. -/
theorem streamed_eq_drained (options : ScanOptions) (source : String) :
    (∀ (κ β : Type) (demand : κ → Demand κ β) (c : κ) (x : Pipeline κ β),
      (Pipeline.start options source c).Reaches demand x →
        x.received ++ x.sender.offered <+: lexWith options source ∧
        x.sender.offered.length ≤ 1 ∧
        (¬ x.HungUp → x.sender = .finished → x.received = lexWith options source) ∧
        (x.HungUp → ∀ y, x.Reaches demand y → y.received = x.received) ∧
        (x.HungUp → ∀ t resume, x.sender = .sending t resume →
          ∀ y, x.Step demand y → ∃ s, y.sender = .working (.halt s)) ∧
        (x.Complete ∨ ∃ y, x.Step demand y) ∧
        (∀ b, x.receiver = .returned b → Drains demand c (lexWith options source) b)) ∧
    (∀ x, (Pipeline.start options source Progress.start).Reaches Progress.demand x →
      Acc (fun y x => Pipeline.Step Progress.demand x y) x ∧
      (∃ y, x.Reaches Progress.demand y ∧ y.Complete) ∧
      ∀ b, x.receiver = .returned b → b = Scope.ofTokens (lexWith options source)) ∧
    Scope.ofSource source = Scope.ofTokens (lex source) := by
  refine ⟨?_, ?_, Scope.ofSource_eq_ofTokens source⟩
  · intro κ β demand c x hreach
    have hsound : x.Sound demand c (lexWith options source) :=
      (Pipeline.sound_start options source).reaches hreach
    exact ⟨hsound.isPrefix, x.sender.length_offered_le, hsound.received_eq,
      fun hhung y hy => (hhung.reaches hy).2,
      fun hhung t resume hsending y hy => hsound.halts hhung hsending hy,
      hsound.complete_or_step, fun b hb => hsound.drains hb⟩
  · intro x hreach
    have hsound := (Pipeline.sound_start options source).reaches hreach
    refine ⟨Pipeline.acc_of_sound Progress.attentive_demand hsound,
      hsound.exists_complete Progress.attentive_demand, fun b hb => ?_⟩
    rw [Scope.ofTokens_eq_conclude]
    exact Progress.eq_conclude_of_drains Progress.settled_start (hsound.drains hb)

/-- A consumer that hangs up at once leaves a scanner waiting with its first token; the scanner is
told, and halts. -/
theorem streamed_hangUp_at_once :
    ∃ (x y : Pipeline Unit Unit) (t : Token) (resume : Bool → Emitter Scanner) (s : Scanner),
      (Pipeline.start ⟨false⟩ "(" ()).Reaches (fun _ => .stop ()) x ∧ x.HungUp ∧
      x.sender = .sending t resume ∧ x.Step (fun _ => .stop ()) y ∧
      y.sender = .working (.halt s) := by
  obtain ⟨t, resume, hrun⟩ :
      ∃ t resume, (Scanner.ofSource "(" ⟨false⟩).run = .offer t resume := ⟨_, _, rfl⟩
  have hreach : (Pipeline.start ⟨false⟩ "(" ()).Reaches (fun _ : Unit => .stop ())
      ⟨.sending t resume, .joining (), []⟩ := by
    rw [Pipeline.start, hrun]
    exact .tail (.tail .refl .offer) (.hangUp rfl)
  have hstep : Pipeline.Step (fun _ : Unit => .stop ()) ⟨.sending t resume, .joining (), []⟩
      ⟨.working (resume false), .joining (), []⟩ := .refuse
  obtain ⟨-, -, -, -, hhalts, -⟩ := (streamed_eq_drained ⟨false⟩ "(").1 _ _ _ _ _ hreach
  obtain ⟨s, hs⟩ := hhalts ⟨(), .inl rfl⟩ t resume rfl _ hstep
  exact ⟨_, _, t, resume, s, hreach, ⟨(), .inl rfl⟩, rfl, hstep, hs⟩

end DeclFront
