import DeclFront.Proofs.Scan.Step

/-!
# A refused scan halts

A scan learns after every token whether it was taken, and a state whose token was not taken ends
without a successor. `Emitter.HaltsWhenRefused` says so of a whole process: wherever it is refused,
it halts at once. The property passes through sequencing (`HaltsWhenRefused.bind`), so it is enough
to look at the few ways in which a state can end:

* `Scanner.step_haltsWhenRefused`: a state that is refused names no successor;
* `Scanner.run_haltsWhenRefused`: so a scan that is refused does nothing more.
-/

namespace DeclFront

namespace Emitter

variable {α β : Type}

/-- Wherever an offer is refused, the process halts at once, with a result in `P`. -/
def HaltsWhenRefused (P : α → Prop) : Emitter α → Prop
  | halt _ => True
  | offer _ resume => (∃ a, P a ∧ resume false = halt a) ∧ (resume true).HaltsWhenRefused P

/-- A sequence halts when refused, if its first part does with a result after which nothing
follows. -/
theorem HaltsWhenRefused.bind {P : α → Prop} {Q : β → Prop} {next : α → Emitter β} {e : Emitter α}
    (he : e.HaltsWhenRefused P) (hstop : ∀ a, P a → ∃ b, Q b ∧ next a = halt b)
    (hnext : ∀ a, (next a).HaltsWhenRefused Q) : (e.bind next).HaltsWhenRefused Q := by
  induction e with
  | halt a => exact hnext a
  | offer t resume ih =>
    obtain ⟨⟨a, ha, hrefused⟩, htaken⟩ := he
    obtain ⟨b, hb, hstopped⟩ := hstop a ha
    refine ⟨⟨b, hb, ?_⟩, ih true htaken⟩
    show (resume false).bind next = halt b
    rw [hrefused, bind_halt, hstopped]

/-- What follows a process that halts when refused matters only where it was taken throughout. -/
theorem HaltsWhenRefused.bind_congr {P : α → Prop} {f g : α → Emitter β} {e : Emitter α}
    (he : e.HaltsWhenRefused P) (hstop : ∀ a, P a → f a = g a) (hresult : f e.result = g e.result) :
    e.bind f = e.bind g := by
  induction e with
  | halt a => exact hresult
  | offer t resume ih =>
    obtain ⟨⟨a, ha, hrefused⟩, htaken⟩ := he
    rw [bind_offer, bind_offer]
    congr 1
    funext taken
    -- a refused offer ends in `P`, where `f` and `g` agree; a taken one leads to the same result
    cases taken with
    | false => rw [hrefused, bind_halt, bind_halt, hstop a ha]
    | true => exact ih true htaken hresult

end Emitter

namespace Scanner

/-- A step that ends without a successor wherever it is refused. -/
def Yields (step : ScanStep) : Prop :=
  step.HaltsWhenRefused fun ending => ending.1 = none

variable (s : Scanner) (c : Cursor)

/-- Going on emits nothing that could be refused. -/
theorem yields_goto (next : ScanState) : Yields (s.goto c next) := trivial

/-- A failure ends the scan, taken or not. -/
theorem yields_fail (message : String) (span : Span) : Yields (s.fail c message span) :=
  ⟨⟨_, rfl, rfl⟩, trivial⟩

/-- So does an end marker. -/
theorem yields_emitEnd : Yields (s.emitEnd c) := ⟨⟨_, rfl, rfl⟩, trivial⟩

/-- What follows a piece is reached only if the piece is taken. -/
theorem yields_emitThen (kind : TokenKind) {next : Scanner → ScanStep}
    (hnext : ∀ s, Yields (next s)) : Yields (s.emitThen c kind next) :=
  ⟨⟨_, rfl, rfl⟩, hnext _⟩

/-- After a piece alone nothing else is emitted. -/
theorem yields_emit (kind : TokenKind) : Yields (s.emit c kind) :=
  yields_emitThen s c kind fun _ => trivial

/-- **A refused state names no successor.** -/
theorem step_haltsWhenRefused (state : ScanState) : Yields (s.step state) := by
  have hdoes := does_step s state
  generalize s.step state = step at hdoes ⊢
  cases hdoes with
  | finish => trivial
  | beginRun | beginQuoted | beginChar | beginComment | pass => exact yields_goto ..
  | unclosed | stray | unknown | badChar | badNumber | badWord => exact yields_fail ..
  | closeDropped => exact yields_emitThen _ _ _ fun s => yields_goto ..
  | cut => exact yields_emitThen _ _ _ fun s => yields_emitEnd ..
  | cutEmpty => exact yields_emitEnd ..
  | _ => exact yields_emit ..

/-- Nor does a chain of states go on when it is refused. -/
theorem drive_haltsWhenRefused (bound : Nat) (state : Option ScanState) :
    (drive bound s state).HaltsWhenRefused fun _ => True := by
  induction bound generalizing s state with
  | zero => exact trivial
  | succ bound ih =>
    cases state with
    | none => exact trivial
    | some state =>
      refine (step_haltsWhenRefused s state).bind ?_ fun ending => ih ending.2 ending.1
      rintro ⟨next, s'⟩ hnext
      -- A refused state names no successor, and without one the chain of states ends.
      obtain rfl : next = none := hnext
      exact ⟨s', trivial, drive_none s' bound⟩

/-- **A refused scan halts.** -/
theorem run_haltsWhenRefused : s.run.HaltsWhenRefused fun _ => True :=
  drive_haltsWhenRefused s _ _

end Scanner

end DeclFront
