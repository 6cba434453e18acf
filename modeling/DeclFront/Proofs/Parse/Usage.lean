import DeclFront.Proofs.Parse.Frame

/-!
# What a parse does with its tokens

A parse takes tokens from its supply, puts some of them back, and reads those again. This module
keeps a log of it (`Machine.log`): each token that is taken, put back or reread is an event. A log
can be replayed on the tokens that a reader holds (`Input.replay?`), and replaying the events of a
run, or of its first part, leads to what the reader of the machine holds at that time
(`Machine.replay?_log`, `Machine.Visits.exists_log`). So nothing is left out.

What carries the result is that a token which was put back lies where none is put back
(`Machine.Ready`, from `Machine.Move.backlog_eq`): the next step rereads it, and puts back nothing.
Hence the log is made of uses. A token is used once, or it is taken, put back and reread at once;
and the tokens that are used are the first ones of the supply, in their order
(`Machine.Ready.exists_uses`). A parse is over after at most two steps for each token, and two more
(`Machine.runWithin_eq`).
-/

namespace DeclFront

/-! ### Logs and their replay -/

/-- What can happen to a token. -/
inductive InputEvent where
  /-- It is taken from the supply. -/
  | taken (t : Token)
  | putBack (t : Token)
  /-- It was put back, and is read again. -/
  | reread (t : Token)
deriving DecidableEq, Repr

/-- The tokens that are to be read. -/
structure Input where
  /-- The tokens put back, last one first. -/
  backlog : List Token
  /-- The tokens still in the supply. -/
  supply : List Token
deriving DecidableEq, Repr

namespace Input

/-- What an event leaves, where it can happen. As long as tokens are put back, none is taken. -/
def after? : Input → InputEvent → Option Input
  | ⟨[], u :: supply⟩, .taken t => if u = t then some ⟨[], supply⟩ else none
  | ⟨u :: backlog, supply⟩, .reread t => if u = t then some ⟨backlog, supply⟩ else none
  | ⟨backlog, supply⟩, .putBack t => some ⟨t :: backlog, supply⟩
  | _, _ => none

/-- What the events of a log leave, where they can happen one after another. -/
def replay? (i : Input) (log : List InputEvent) : Option Input :=
  log.foldlM after? i

variable (t : Token) (backlog supply : List Token)

@[simp] theorem after?_taken : after? ⟨[], t :: supply⟩ (.taken t) = some ⟨[], supply⟩ :=
  if_pos rfl

@[simp] theorem after?_reread :
    after? ⟨t :: backlog, supply⟩ (.reread t) = some ⟨backlog, supply⟩ :=
  if_pos rfl

@[simp] theorem after?_putBack :
    after? ⟨backlog, supply⟩ (.putBack t) = some ⟨t :: backlog, supply⟩ := by
  cases backlog <;> cases supply <;> rfl

@[simp] theorem replay?_nil (i : Input) : i.replay? [] = some i := rfl

/-- A log that begins with an event goes on from what the event leaves. -/
theorem replay?_cons {i j : Input} {event : InputEvent} (h : i.after? event = some j)
    (log : List InputEvent) : i.replay? (event :: log) = j.replay? log := by
  rw [replay?, List.foldlM_cons, h]
  rfl

/-- A log can be replayed in two parts. -/
theorem replay?_append {i j : Input} {log : List InputEvent} (h : i.replay? log = some j)
    (more : List InputEvent) : i.replay? (log ++ more) = j.replay? more := by
  rw [replay?, List.foldlM_append]
  show (i.replay? log).bind _ = _
  rw [h]
  rfl

/-- The events of the log can happen one after another, and at no time are more than `n` tokens put
back. -/
def StaysWithin (n : Nat) (i : Input) (log : List InputEvent) : Prop :=
  ∀ before, before <+: log → ∃ j, i.replay? before = some j ∧ j.backlog.length ≤ n

variable {n : Nat} {i j : Input} {event : InputEvent} {log : List InputEvent}

theorem StaysWithin.nil (hi : i.backlog.length ≤ n) : StaysWithin n i [] := by
  intro before hbefore
  rw [List.prefix_nil.1 hbefore]
  exact ⟨i, rfl, hi⟩

theorem StaysWithin.cons (hi : i.backlog.length ≤ n) (hevent : i.after? event = some j)
    (hlog : StaysWithin n j log) : StaysWithin n i (event :: log) := by
  intro before hbefore
  -- a first part of the log is empty or has the event in it
  obtain rfl | ⟨before', rfl, hbefore'⟩ := List.prefix_cons_iff.1 hbefore
  · exact ⟨i, rfl, hi⟩
  · rw [replay?_cons hevent]
    exact hlog before' hbefore'

end Input

/-! ### Uses -/

/-- A token that is taken from the supply and used. -/
structure TokenUse where
  token : Token
  /-- It is put back once. -/
  again : Bool
deriving DecidableEq, Repr

/-- What happens to the token. It is reread as soon as it was put back. -/
def TokenUse.events : TokenUse → List InputEvent
  | ⟨t, false⟩ => [.taken t]
  | ⟨t, true⟩ => [.taken t, .putBack t, .reread t]

/-- The tokens are used once each. -/
def TokenUse.once (ts : List Token) : List TokenUse :=
  ts.map (⟨·, false⟩)

namespace TokenUse

theorem tokens_once (ts : List Token) : (once ts).map token = ts := by
  rw [once, List.map_map]
  exact List.map_id ts

theorem events_once (ts : List Token) : (once ts).flatMap events = ts.map .taken := by
  induction ts with
  | nil => rfl
  | cons t ts ih => exact congrArg (InputEvent.taken t :: ·) ih

/-- **At most one token is put back at any time** while the first tokens of a supply are used. -/
theorem staysWithin {uses : List TokenUse} {supply : List Token}
    (huses : uses.map token <+: supply) :
    Input.StaysWithin 1 ⟨[], supply⟩ (uses.flatMap events) := by
  -- after each use nothing is put back, so the uses can be gone through one by one
  induction uses generalizing supply with
  | nil => exact .nil (Nat.zero_le 1)
  | cons use uses ih =>
    obtain ⟨t, again⟩ := use
    obtain ⟨rest, rfl⟩ := huses
    have hlater := ih (List.prefix_append (uses.map token) rest)
    show Input.StaysWithin 1 ⟨[], t :: (uses.map token ++ rest)⟩ _
    cases again with
    | false => exact .cons (Nat.zero_le 1) (Input.after?_taken t _) hlater
    | true =>
      apply Input.StaysWithin.cons (Nat.zero_le 1) (Input.after?_taken t _)
      apply Input.StaysWithin.cons (Nat.zero_le 1) (Input.after?_putBack t _ _)
      exact .cons (Nat.le_refl 1) (Input.after?_reread t _ _) hlater

end TokenUse

namespace InputEvent

/-- The tokens by which a backlog has grown were put back. -/
def growth (before after : List Token) : List InputEvent :=
  (after.take (after.length - before.length)).reverse.map .putBack

theorem growth_self (backlog : List Token) : growth backlog backlog = [] := by
  rw [growth, Nat.sub_self]
  rfl

theorem growth_cons (t : Token) (backlog : List Token) :
    growth backlog (t :: backlog) = [.putBack t] := by
  have hlength : (t :: backlog).length - backlog.length = 1 := Nat.add_sub_cancel_left _ 1
  rw [growth, hlength]
  rfl

end InputEvent

/-! ### The log of a reader -/

variable {σ : Type} [TokenSupply σ]

namespace Reader

variable {r r' : Reader σ} {t : Token}

/-- The tokens that a reader holds. -/
def input (r : Reader σ) : Input :=
  ⟨r.backlog, TokenSupply.tokens r.supply⟩

theorem input_list (r : Reader (List Token)) : r.input = ⟨r.backlog, r.supply⟩ := by
  rw [input, TokenSupply.tokens_list]

/-- The event by which the token `t` is drawn. -/
def drawEvent (r : Reader σ) (t : Token) : InputEvent :=
  if r.backlog = [] then .taken t else .reread t

/-- What happens while the next token is read, those included that are skipped. -/
def nextLog (r : Reader σ) : List InputEvent :=
  match h : r.draw? with
  | none => []
  | some (t, r') =>
    have _lt := remaining_lt_of_draw? h
    if t.isIgnorable then r.drawEvent t :: nextLog r' else [r.drawEvent t]
termination_by r.remaining

theorem nextLog_of_draw? (h : r.draw? = some (t, r')) :
    r.nextLog = if t.isIgnorable then r.drawEvent t :: r'.nextLog else [r.drawEvent t] := by
  rw [nextLog]
  split
  · next heq => rw [h] at heq; cases heq
  · next heq => rw [h] at heq; cases heq; rfl

theorem nextLog_of_draw?_eq_none (h : r.draw? = none) : r.nextLog = [] := by
  rw [nextLog]
  split
  · rfl
  · next heq => rw [h] at heq; cases heq

/-- To draw a token is the event that is logged. -/
theorem after?_drawEvent (h : r.draw? = some (t, r')) :
    r.input.after? (r.drawEvent t) = some r'.input := by
  unfold draw? at h
  unfold input drawEvent
  -- what was put back is drawn first, and only then the supply is asked
  cases hbacklog : r.backlog with
  | cons u backlog =>
    rw [hbacklog] at h
    cases h
    rw [if_neg (List.cons_ne_nil _ _)]
    exact Input.after?_reread _ _ _
  | nil =>
    rw [hbacklog] at h
    dsimp only at h
    split at h
    · next hsupply =>
      cases h
      rw [if_pos rfl, TokenSupply.tokens_of_next?_eq_some hsupply]
      exact Input.after?_taken _ _
    · cases h

/-- Where no token is put back, it comes from the supply. -/
theorem eq_of_draw?_of_nil (h : r.draw? = some (t, r')) (hbacklog : r.backlog = []) :
    r.drawEvent t = .taken t ∧ r'.backlog = [] ∧
      TokenSupply.tokens r.supply = t :: TokenSupply.tokens r'.supply := by
  refine ⟨if_pos hbacklog, ?_⟩
  unfold draw? at h
  rw [hbacklog] at h
  dsimp only at h
  split at h
  · next hsupply =>
    cases h
    exact ⟨rfl, TokenSupply.tokens_of_next?_eq_some hsupply⟩
  · cases h

/-- **Reading a token is what is logged of it.** -/
theorem replay?_nextLog (r : Reader σ) : r.input.replay? r.nextLog = some r.next.2.input := by
  fun_induction next r with
  | case1 r hdraw => rw [nextLog_of_draw?_eq_none hdraw, Input.replay?_nil]
  | case2 r t r' hdraw _ hignorable ih =>
    rw [nextLog_of_draw? hdraw, if_pos hignorable, Input.replay?_cons (after?_drawEvent hdraw)]
    exact ih
  | case3 r t r' hdraw _ hkept =>
    rw [nextLog_of_draw? hdraw, if_neg hkept, Input.replay?_cons (after?_drawEvent hdraw)]
    rfl

/-- Where no token is put back, tokens are taken up to the one that is read. -/
theorem nextLog_of_nil (h : r.backlog = []) :
    ∃ us, r.nextLog = (us ++ r.next.1.toList).map .taken ∧ r.next.2.backlog = [] ∧
      TokenSupply.tokens r.supply =
        us ++ r.next.1.toList ++ TokenSupply.tokens r.next.2.supply := by
  -- along the tokens that are skipped; none of them is put back, so the next one is taken as well
  fun_induction next r with
  | case1 r hdraw =>
    exact ⟨[], nextLog_of_draw?_eq_none hdraw, h, rfl⟩
  | case2 r t r' hdraw _ hignorable ih =>
    obtain ⟨hevent, hbacklog, htokens⟩ := eq_of_draw?_of_nil hdraw h
    obtain ⟨us, hlog, hnext, hsupply⟩ := ih hbacklog
    refine ⟨t :: us, ?_, hnext, ?_⟩
    · rw [nextLog_of_draw? hdraw, if_pos hignorable, hlog, hevent]
      rfl
    · rw [htokens, hsupply]
      rfl
  | case3 r t r' hdraw _ hkept =>
    obtain ⟨hevent, hbacklog, htokens⟩ := eq_of_draw?_of_nil hdraw h
    refine ⟨[], ?_, hbacklog, htokens⟩
    rw [nextLog_of_draw? hdraw, if_neg hkept, hevent]
    rfl

/-- A token that was put back is reread, and nothing else happens. -/
theorem nextLog_of_singleton (h : r.backlog = [t]) (ht : t.isIgnorable = false) :
    r.nextLog = [.reread t] ∧ r.next.1 = some t ∧ r.next.2.backlog = [] ∧
      r.next.2.supply = r.supply := by
  have hdraw : r.draw? = some (t, { r with backlog := [] }) := by
    unfold draw?
    rw [h]
  have hnext : r.next = (some t, note { r with backlog := [] } t) :=
    next_of_backlog (r := r.withSupply ()) h ht
  have hevent : r.drawEvent t = .reread t := by
    apply if_neg
    rw [h]
    exact List.cons_ne_nil t []
  rw [nextLog_of_draw? hdraw, if_neg (by simp [ht]), hevent, hnext]
  exact ⟨rfl, rfl, rfl, rfl⟩

/-- A token that is read matters to the grammar. -/
theorem isIgnorable_of_next (h : r.next.1 = some t) : t.isIgnorable = false := by
  rw [(next_eq r).1] at h
  exact isIgnorable_of_mem_stack (List.mem_of_head? h)

end Reader

/-! ### The log of a run -/

/-- The reader that a step leaves. -/
def Progress.reader : Progress σ → Reader σ
  | more m => m.reader
  | done _ r => r

namespace Machine

open InputEvent

variable {m m' n : Machine σ} {r q : Reader σ} {level : ScopeLevel} {token : Option Token}

/-- What happens to tokens in one step: one is read, and then some may be put back. -/
def stepLog (m : Machine σ) (level : ScopeLevel) : List InputEvent :=
  m.reader.nextLog ++ growth m.reader.next.2.backlog (m.step level).reader.backlog

/-- What happens to tokens in the whole run. -/
def log (m : Machine σ) (level : ScopeLevel) : List InputEvent :=
  match h : m.step level with
  | .more m' =>
    have _lt := measure_lt_of_step h
    m.stepLog level ++ log m' level
  | .done _ _ => m.stepLog level
termination_by m.measure

/-- The log of a run begins with that of its first step, -/
theorem log_of_more (h : m.step level = .more m') :
    m.log level = m.stepLog level ++ m'.log level := by
  rw [log]
  split
  · next heq => rw [h] at heq; cases heq; rfl
  · next heq => rw [h] at heq; cases heq

/-- and is that of the step where the run is over. -/
theorem log_of_done {outcome : Except SyntaxError Scope} (h : m.step level = .done outcome q) :
    m.log level = m.stepLog level := by
  rw [log]
  split
  · next heq => rw [h] at heq; cases heq
  · rfl

omit [TokenSupply σ] in
/-- A machine that stops puts nothing back. -/
theorem eq_of_onToken_eq_done {outcome : Except SyntaxError Scope}
    (h : m.onToken .unit r token = .done outcome q) :
    q.backlog = r.backlog ∧ q.supply = r.supply := by
  cases outcome with
  -- success is at the end of the source, where the token is kept or there is none
  | ok done =>
    have hsame := (accepts_of_onToken h).onToken_eq (r := r)
    rw [h] at hsame
    cases hsame
    exact ⟨rfl, rfl⟩
  | error e =>
    have hclosed : q = r.closeBodies m.enclosing.length := by
      unfold onToken at h
      split at h
      · exact eq_of_onStatement_eq_error h
      · exact eq_of_onDeclaration_eq_error h
    rw [hclosed]
    exact ⟨rfl, rfl⟩

omit [TokenSupply σ] in
/-- A move takes nothing from the supply. -/
theorem Move.supply_eq {t : Token} {enclosing : List OpenDecl} {focus : Focus}
    (h : Move r t enclosing focus m') : m'.reader.supply = r.supply := by
  cases h <;> rfl

omit [TokenSupply σ] in
/-- **A token is put back, or none is.** The supply is left alone. -/
theorem eq_of_onToken (m : Machine σ) (r : Reader σ) (token : Option Token) :
    (m.onToken .unit r token).reader.supply = r.supply ∧
      ((m.onToken .unit r token).reader.backlog = r.backlog ∨
        ∃ t, (m.onToken .unit r token).reader.backlog = t :: r.backlog) := by
  cases h : m.onToken .unit r token with
  | done outcome q =>
    obtain ⟨hbacklog, hsupply⟩ := eq_of_onToken_eq_done h
    exact ⟨hsupply, .inl hbacklog⟩
  | more m' =>
    cases token with
    | none => exact absurd h (onToken_none_ne_more m m' .unit r)
    | some t =>
      have hmove := move_of_onToken h
      refine ⟨hmove.supply_eq, ?_⟩
      obtain hsame | ⟨hback, -, -⟩ := hmove.backlog_eq
      · exact .inl hsame
      · exact .inr ⟨t, hback⟩

/-- **A step is what is logged of it.** -/
theorem replay?_stepLog (m : Machine σ) :
    m.reader.input.replay? (m.stepLog .unit) = some (m.step .unit).reader.input := by
  rw [stepLog, Input.replay?_append m.reader.replay?_nextLog]
  obtain ⟨hsupply, hback⟩ := eq_of_onToken m m.reader.next.2 m.reader.next.1
  change (m.step .unit).reader.supply = _ at hsupply
  change (m.step .unit).reader.backlog = _ ∨ ∃ t, (m.step .unit).reader.backlog = _ at hback
  unfold Reader.input
  -- the backlog is as it was, or has grown by one token
  obtain hsame | ⟨t, hback⟩ := hback
  · rw [hsame, growth_self, hsupply]
    rfl
  · rw [hback, growth_cons, hsupply, Input.replay?_cons (Input.after?_putBack t _ _)]
    rfl

/-- **So is a run.** -/
theorem replay?_log (m : Machine σ) :
    m.reader.input.replay? (m.log .unit) = some (m.run .unit).2.input := by
  have hstep := m.replay?_stepLog
  fun_induction run m .unit with
  -- the log of the step leads to where that of the rest begins
  | case1 m m' hmore _ ih =>
    rw [hmore] at hstep
    rw [log_of_more hmore, Input.replay?_append hstep]
    exact ih m'.replay?_stepLog
  | case2 m outcome r hdone =>
    rw [hdone] at hstep
    rw [log_of_done hdone]
    exact hstep

/-- Up to a machine that a run goes through, the log leads to what the reader of it holds. -/
theorem Visits.exists_log (h : Visits .unit m n) :
    ∃ before, m.log .unit = before ++ n.log .unit ∧
      m.reader.input.replay? before = some n.reader.input := by
  induction h with
  | refl => exact ⟨[], rfl, rfl⟩
  | @tail n n' _ hmore ih =>
    obtain ⟨before, hlog, hreplay⟩ := ih
    have hstep := n.replay?_stepLog
    rw [hmore] at hstep
    refine ⟨before ++ n.stepLog .unit, ?_, ?_⟩
    · rw [hlog, log_of_more hmore, List.append_assoc]
    · rw [Input.replay?_append hreplay]
      exact hstep

/-! ### A run uses tokens -/

/-- At most one token is put back, and only where the next step puts nothing back. -/
def Ready (m : Machine σ) : Prop :=
  m.reader.backlog = [] ∨
    ∃ t, m.reader.backlog = [t] ∧ t.isIgnorable = false ∧ m.focus.rank = 0

/-- A step with nothing put back takes tokens up to one that it reads. If that one is put back, its
use ends in the next step. -/
theorem exists_use_of_nil (h : m.reader.backlog = []) (hmore : m.step .unit = .more m') :
    ∃ (us : List Token) (use : TokenUse), m'.Ready ∧
      TokenSupply.tokens m.reader.supply =
        us ++ use.token :: TokenSupply.tokens m'.reader.supply ∧
      m.stepLog .unit ++ m'.reader.backlog.map .reread = us.map .taken ++ use.events := by
  obtain ⟨us, hlog, hbacklog, htokens⟩ := Reader.nextLog_of_nil h
  have hstepLog : m.stepLog .unit = m.reader.nextLog ++ growth [] m'.reader.backlog := by
    rw [stepLog, hmore, hbacklog]
    rfl
  unfold step at hmore
  cases hnext : m.reader.next.1 with
  -- without a token the machine would have stopped
  | none =>
    rw [hnext] at hmore
    exact absurd hmore (onToken_none_ne_more m m' .unit _)
  | some t =>
    rw [hnext] at hmore htokens hlog
    have hmove := move_of_onToken hmore
    have hsupply : TokenSupply.tokens m.reader.supply =
        us ++ t :: TokenSupply.tokens m'.reader.supply := by
      rw [htokens, hmove.supply_eq, List.append_assoc]
      rfl
    have hback := hmove.backlog_eq
    rw [hbacklog] at hback
    rw [hstepLog, hlog, List.map_append]
    -- a token that is put back leads to a place of rank 0, which is what `Ready` asks for
    obtain hleft | ⟨hleft, -, hrank⟩ := hback
    · refine ⟨us, ⟨t, false⟩, .inl hleft, hsupply, ?_⟩
      rw [hleft, growth_self, List.append_nil]
      exact List.append_nil _
    · refine ⟨us, ⟨t, true⟩, .inr ⟨t, hleft, Reader.isIgnorable_of_next hnext, hrank⟩, hsupply, ?_⟩
      rw [hleft, growth_cons, List.append_assoc, List.append_assoc]
      rfl

/-- A step with a token put back, where it puts nothing back itself, rereads that token. -/
theorem stepLog_of_singleton {t : Token} (h : m.reader.backlog = [t])
    (ht : t.isIgnorable = false) (hrank : m.focus.rank = 0) :
    m.stepLog .unit = [.reread t] ∧ (m.step .unit).reader.backlog = [] ∧
      (m.step .unit).reader.supply = m.reader.supply := by
  obtain ⟨hlog, hnext, hbacklog, hsupply⟩ := Reader.nextLog_of_singleton h ht
  have hleft : (m.step .unit).reader.backlog = [] := by
    unfold step
    rw [hnext]
    cases htoken : m.onToken .unit m.reader.next.2 (some t) with
    | done outcome q => exact (eq_of_onToken_eq_done htoken).1.trans hbacklog
    | more m' =>
      obtain hsame | ⟨-, hpositive, -⟩ := (move_of_onToken htoken).backlog_eq
      · exact hsame.trans hbacklog
      · -- at a place of rank 0 no token is put back
        rw [hrank] at hpositive
        exact absurd hpositive (Nat.lt_irrefl 0)
  refine ⟨?_, hleft, ?_⟩
  · rw [stepLog, hlog, hleft, hbacklog, growth_self]
    rfl
  · exact (eq_of_onToken m m.reader.next.2 m.reader.next.1).1.trans hsupply

/-- A machine that stops with nothing put back has taken tokens. -/
theorem stepLog_of_done (h : m.reader.backlog = []) {outcome : Except SyntaxError Scope}
    (hdone : m.step .unit = .done outcome q) :
    ∃ us, us <+: TokenSupply.tokens m.reader.supply ∧ m.stepLog .unit = us.map .taken := by
  obtain ⟨us, hlog, hbacklog, htokens⟩ := Reader.nextLog_of_nil h
  refine ⟨us ++ m.reader.next.1.toList, ?_, ?_⟩
  · rw [htokens]
    exact List.prefix_append _ _
  · have hleft : q.backlog = [] := (eq_of_onToken_eq_done hdone).1.trans hbacklog
    rw [stepLog, hdone, hlog, hbacklog]
    show _ ++ growth [] q.backlog = _
    rw [hleft, growth_self, List.append_nil]

open TokenUse in
/-- **A run is made of uses.** A token that is put back at the start is reread first. -/
theorem Ready.exists_uses (h : m.Ready) :
    ∃ uses : List TokenUse, uses.map TokenUse.token <+: TokenSupply.tokens m.reader.supply ∧
      m.log .unit = m.reader.backlog.map .reread ++ uses.flatMap events := by
  -- a token that waits to be reread is stated apart: its use began in the step before
  fun_induction run m .unit with
  | case1 m m' hmore _ ih =>
    rw [log_of_more hmore]
    obtain hbacklog | ⟨t, hbacklog, ht, hrank⟩ := h
    · -- tokens are taken, and the last of them may be reread in the next step
      obtain ⟨us, use, hready, htokens, hlog⟩ := exists_use_of_nil hbacklog hmore
      obtain ⟨uses, huses, hlater⟩ := ih hready
      refine ⟨once us ++ use :: uses, ?_, ?_⟩
      · rw [List.map_append, tokens_once, htokens]
        exact (List.prefix_append_right_inj us).2 (List.cons_prefix_cons.2 ⟨rfl, huses⟩)
      · rw [hlater, ← List.append_assoc, hlog, hbacklog, List.flatMap_append, events_once,
          List.append_assoc]
        rfl
    · -- the step ends a use that was begun before
      obtain ⟨hlog, hleft, hsupply⟩ := stepLog_of_singleton hbacklog ht hrank
      rw [hmore] at hleft hsupply
      obtain ⟨uses, huses, hlater⟩ := ih (.inl hleft)
      change m'.reader.backlog = [] at hleft
      change m'.reader.supply = m.reader.supply at hsupply
      rw [hsupply] at huses
      refine ⟨uses, huses, ?_⟩
      rw [hlog, hlater, hleft, hbacklog]
      rfl
  | case2 m outcome q hdone =>
    rw [log_of_done hdone]
    obtain hbacklog | ⟨t, hbacklog, ht, hrank⟩ := h
    · obtain ⟨us, hus, hlog⟩ := stepLog_of_done hbacklog hdone
      refine ⟨once us, ?_, ?_⟩
      · rwa [tokens_once]
      · rw [hlog, events_once, hbacklog]
        rfl
    · refine ⟨[], List.nil_prefix, ?_⟩
      rw [(stepLog_of_singleton hbacklog ht hrank).1, hbacklog]
      rfl

/-! ### A run ends -/

/-- The outcome of a run, if it takes no more than `fuel` steps. -/
def runWithin (m : Machine σ) (level : ScopeLevel) : Nat → Option (Except SyntaxError Scope)
  | 0 => none
  | fuel + 1 =>
    match m.step level with
    | .more m' => m'.runWithin level fuel
    | .done outcome _ => some outcome

/-- **A run takes no more steps than its measure says.** -/
theorem runWithin_eq {fuel : Nat} (h : m.measure < fuel) (level : ScopeLevel) :
    m.runWithin level fuel = some (m.run level).1 := by
  fun_induction run m level generalizing fuel with
  | case1 m m' hmore hlt ih =>
    obtain ⟨fuel, rfl⟩ := Nat.exists_eq_add_one_of_ne_zero (Nat.ne_zero_of_lt h)
    rw [runWithin, hmore]
    exact ih (Nat.lt_of_lt_of_le hlt (Nat.le_of_lt_succ h))
  | case2 m outcome q hdone =>
    obtain ⟨fuel, rfl⟩ := Nat.exists_eq_add_one_of_ne_zero (Nat.ne_zero_of_lt h)
    rw [runWithin, hdone]

end Machine

/-! ### The result -/

/-- What the machine `m` does with the tokens `ts` while it parses them. -/
structure Machine.UsesTokens (m : Machine (List Token)) (ts : List Token) : Prop where
  /-- The parse is over after so many steps, though tokens are read more than once. -/
  ends : m.runWithin .unit (2 * ts.length + 2) = some (Scope.ofTokens ts)
  /-- At no time are more bodies open than may be. -/
  nested : ∀ n, Visits .unit m n → n.enclosing.length ≤ 128
  /-- The log leads to what the reader holds at any time of the parse. -/
  logged : ∀ n, Visits .unit m n → ∃ before, m.log .unit = before ++ n.log .unit ∧
    Input.replay? ⟨[], ts⟩ before = some ⟨n.reader.backlog, n.reader.supply⟩
  /-- The whole log leads to what the reader holds in the end. -/
  left : Input.replay? ⟨[], ts⟩ (m.log .unit) =
    some ⟨(m.run .unit).2.backlog, (m.run .unit).2.supply⟩
  /-- At no time is more than one token put back. -/
  atMostOne : Input.StaysWithin 1 ⟨[], ts⟩ (m.log .unit)
  /-- Tokens are taken in their order, each of them once. None is put back twice. -/
  used : ∃ uses : List TokenUse, uses.map TokenUse.token <+: ts ∧
    m.log .unit = uses.flatMap TokenUse.events

namespace Scope

/-- The tokens that a parse uses are the first ones. -/
theorem exists_uses (ts : List Token) :
    ∃ uses : List TokenUse, uses.map TokenUse.token <+: ts ∧
      (Machine.start (Reader.ofSupply ts)).log .unit = uses.flatMap TokenUse.events := by
  obtain ⟨uses, huses, hlog⟩ :=
    Machine.Ready.exists_uses (m := .start (Reader.ofSupply ts)) (.inl rfl)
  rw [TokenSupply.tokens_list] at huses
  exact ⟨uses, huses, hlog⟩

/-- **A parse ends, and puts back one token at a time.** -/
theorem usesTokens_ofTokens (ts : List Token) :
    (Machine.start (Reader.ofSupply ts)).UsesTokens ts where
  ends := by
    apply Machine.runWithin_eq
    show 2 * (0 + ts.length) + 1 < 2 * ts.length + 2
    omega
  nested n hvisits := by
    -- the reader counts the bodies that are open, and it is kept within the limit
    have hcounts := (Machine.counts_start (Nat.zero_le _)).visits hvisits
    have hcount : n.reader.openBodies = 0 + n.enclosing.length := hcounts.count
    have hle : n.reader.openBodies ≤ 128 := hcounts.le
    omega
  logged n hvisits := by
    obtain ⟨before, hlog, hreplay⟩ := hvisits.exists_log
    rw [Reader.input_list, Reader.input_list] at hreplay
    exact ⟨before, hlog, hreplay⟩
  left := by
    -- what the reader holds at the start is the list, with nothing put back
    have hreplay := (Machine.start (Reader.ofSupply ts)).replay?_log
    rwa [Reader.input_list, Reader.input_list] at hreplay
  atMostOne := by
    -- the whole log is made of uses, each of which puts back one token at most
    obtain ⟨uses, huses, hlog⟩ := exists_uses ts
    rw [hlog]
    exact TokenUse.staysWithin huses
  used := exists_uses ts

end Scope

/-- A keyword and a closing parenthesis are put back once each. -/
example :
    let keyword : Token := ⟨.keyword .function, "func", ⟨0, 4⟩⟩
    let name : Token := ⟨.identifier, "f", ⟨5, 6⟩⟩
    let opening : Token := ⟨.bracketOpen, "(", ⟨6, 7⟩⟩
    let closing : Token := ⟨.bracketClose, ")", ⟨7, 8⟩⟩
    (Machine.start (Reader.ofSupply [keyword, name, opening, closing])).log .unit =
      [.taken keyword, .putBack keyword, .reread keyword, .taken name, .taken opening,
        .taken closing, .putBack closing, .reread closing] := by
  decide +kernel

end DeclFront
