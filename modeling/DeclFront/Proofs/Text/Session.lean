import DeclFront.Proofs.Text.Undo

/-!
# Cursors and their copies

A cursor can be copied, and a copy can be gone back to at any later time. A `Session` has a current
state and the copies that were made of it. It does not matter what the states are: cursors, zippers,
or the calls that lead to them. Sessions of different sorts that are asked the same run in step
(`Session.after_map`), so the third one says which calls the current cursor has behind it, whatever
copies it comes from.

`Cursor.refines_zipper` is the result: after all calls that are allowed, a cursor has answered as a
zipper does, and stands for that zipper. `Cursor.Refines` lists what this says about the place, the
undo, the mark and the piece.
-/

namespace DeclFront

/-- What can be asked of a session. -/
inductive SessionCall where
  | call (call : CursorCall)
  /-- Keep a copy of the current state. -/
  | copy
  /-- Go back to a copy, which is kept. -/
  | restore (i : Nat)

/-- A state and the copies that were made of it. -/
structure Session (S : Type) where
  current : S
  /-- The copies, in the order in which they were made. -/
  copies : List S

namespace Session

variable {S S' : Type}

/-- A session with no copies. -/
def start (s : S) : Session S :=
  ⟨s, []⟩

/-- The session with all its states viewed in another way. -/
def map (view : S → S') (s : Session S) : Session S' :=
  ⟨view s.current, s.copies.map view⟩

/-- The states of a session. -/
def states (s : Session S) : List S :=
  s.current :: s.copies

/-- What a call to a session answers, and the session that it leaves. -/
def step (respond : S → CursorCall → CursorAnswer × S) (s : Session S) :
    SessionCall → CursorAnswer × Session S
  | .call call => ((respond s.current call).1, { s with current := (respond s.current call).2 })
  | .copy => (.nothing, { s with copies := s.copies ++ [s.current] })
  | .restore i => (.nothing, { s with current := s.copies.getD i s.current })

/-- The answers to calls that are made one after another. -/
def answers (respond : S → CursorCall → CursorAnswer × S) :
    Session S → List SessionCall → List CursorAnswer
  | _, [] => []
  | s, call :: calls => (s.step respond call).1 :: answers respond (s.step respond call).2 calls

/-- What calls that are made one after another leave. -/
def after (respond : S → CursorCall → CursorAnswer × S) : Session S → List SessionCall → Session S
  | s, [] => s
  | s, call :: calls => after respond (s.step respond call).2 calls

/-- A call to a session whose states are calls is added to the current ones. -/
def record (history : List CursorCall) (call : CursorCall) : CursorAnswer × List CursorCall :=
  (.nothing, history ++ [call])

variable {respond : S → CursorCall → CursorAnswer × S}
  {respond' : S' → CursorCall → CursorAnswer × S'} {view : S → S'}

/-- Where one call goes through a view of the state, so does a step of a session. -/
theorem step_map (hview : ∀ s call, (respond' (view s) call).2 = view (respond s call).2)
    (s : Session S) (call : SessionCall) :
    ((s.map view).step respond' call).2 = (s.step respond call).2.map view := by
  cases call with
  | call call =>
    show (⟨(respond' (view s.current) call).2, _⟩ : Session S') = _
    rw [hview]
    rfl
  -- copies are viewed like the state they were made of
  | copy =>
    show (⟨_, s.copies.map view ++ [view s.current]⟩ : Session S') =
      ⟨view s.current, (s.copies ++ [s.current]).map view⟩
    rw [List.map_append]
    rfl
  -- where there is no such copy, the state stays
  | restore i =>
    show (⟨(s.copies.map view).getD i (view s.current), _⟩ : Session S') =
      ⟨view (s.copies.getD i s.current), s.copies.map view⟩
    rw [List.getD_eq_getElem?_getD, List.getD_eq_getElem?_getD, List.getElem?_map, Option.getD_map]
    rfl

/-- **Simulation.** Where every call goes through a view of the state, so does a session. -/
theorem after_map (hview : ∀ s call, (respond' (view s) call).2 = view (respond s call).2)
    (s : Session S) (calls : List SessionCall) :
    after respond' (s.map view) calls = (after respond s calls).map view := by
  induction calls generalizing s with
  | nil => rfl
  | cons call calls ih =>
    rw [after, after, step_map hview]
    exact ih _

/-- What holds of the states of a session, and of what the call makes of the current one, holds of
the states after the call. -/
theorem forall_states_step {P : S → Prop} {s : Session S} (h : ∀ x ∈ s.states, P x)
    (call : SessionCall) (hcall : ∀ c, call = .call c → P (respond s.current c).2) :
    ∀ x ∈ (s.step respond call).2.states, P x := by
  have hcurrent : P s.current := h _ List.mem_cons_self
  have hcopies : ∀ x ∈ s.copies, P x := fun x hx => h x (List.mem_cons_of_mem _ hx)
  intro x hx
  cases call with
  | call c =>
    obtain rfl | hx := List.mem_cons.1 hx
    · exact hcall c rfl
    · exact hcopies x hx
  | copy =>
    obtain rfl | hx := List.mem_cons.1 hx
    · exact hcurrent
    · obtain hx | hx := List.mem_append.1 hx
      · exact hcopies x hx
      · rwa [List.mem_singleton.1 hx]
  | restore i =>
    obtain rfl | hx := List.mem_cons.1 hx
    · show P (s.copies.getD i s.current)
      rw [List.getD_eq_getElem?_getD]
      -- the copy that was asked for, if there is one
      cases hi : s.copies[i]? with
      | none => exact hcurrent
      | some copy => exact hcopies copy (List.mem_of_getElem? hi)
    · exact hcopies x hx

end Session

/-! ### Sessions with a cursor -/

/-- What may be asked while the current cursor is `c`. It can always be copied, and gone back
from. -/
def SessionCall.Allowed (c : Cursor) : SessionCall → Prop
  | .call asked => asked.Allowed c
  | .copy | .restore _ => True

instance (c : Cursor) : DecidablePred (SessionCall.Allowed c) := fun call => by
  cases call <;> unfold SessionCall.Allowed <;> infer_instance

namespace Session

/-- The calls may be made, each at its time. -/
def Allows : Session Cursor → List SessionCall → Prop
  | _, [] => True
  | s, call :: calls =>
    call.Allowed s.current ∧ Allows (s.step CursorCall.onCursor call).2 calls

instance decidableAllows : ∀ (s : Session Cursor) (calls : List SessionCall),
    Decidable (s.Allows calls)
  | _, [] => inferInstanceAs (Decidable True)
  | s, call :: calls =>
    haveI := decidableAllows (s.step CursorCall.onCursor call).2 calls
    inferInstanceAs (Decidable (call.Allowed s.current ∧ _))

variable {source : String}

/-- The cursor that calls lead to is a view of them. -/
theorem onCursor_view (source : String) (history : List CursorCall) (call : CursorCall) :
    (CursorCall.onCursor (Cursor.after source history) call).2 =
      Cursor.after source (record history call).2 :=
  (Cursor.after_concat source history call).symm

/-- So is the zipper. -/
theorem onZipper_view (source : String) (history : List CursorCall) (call : CursorCall) :
    (CursorCall.onZipper (Zipper.after source history) call).2 =
      Zipper.after source (record history call).2 :=
  (Zipper.after_concat source history call).symm

/-- **A session with a cursor is one with a zipper.** All states stay such as allowed calls lead to,
and the answers are the same. -/
theorem answers_eq {s : Session (List CursorCall)} {calls : List SessionCall}
    (hadmits : ∀ history ∈ s.states, Cursor.Admits source history)
    (hallows : (s.map (Cursor.after source)).Allows calls) :
    answers CursorCall.onCursor (s.map (Cursor.after source)) calls =
        answers CursorCall.onZipper (s.map (Zipper.after source)) calls ∧
      ∀ history ∈ (after record s calls).states, Cursor.Admits source history := by
  induction calls generalizing s with
  | nil => exact ⟨rfl, hadmits⟩
  | cons call calls ih =>
    obtain ⟨hcall, hallows⟩ := hallows
    have hcurrent : Cursor.Admits source s.current := hadmits _ List.mem_cons_self
    have hnext : ∀ history ∈ (s.step record call).2.states, Cursor.Admits source history := by
      apply forall_states_step hadmits call
      rintro c rfl
      exact hcurrent.concat hcall
    -- a step is the same in all three sessions
    have hcursor := step_map (onCursor_view source) s call
    have hzipper := step_map (onZipper_view source) s call
    rw [hcursor] at hallows
    obtain ⟨hanswers, hstates⟩ := ih hnext hallows
    refine ⟨?_, hstates⟩
    rw [answers, answers, hcursor, hzipper, hanswers]
    congr 1
    -- copies are answered by nothing, so it is about a call to the current state
    cases call with
    | copy | restore i => rfl
    | call c =>
      have hc : c.Allowed (Cursor.after source s.current) := hcall
      show (c.onCursor (Cursor.after source s.current)).1 =
        (c.onZipper (Zipper.after source s.current)).1
      rw [hcurrent.after_eq] at hc ⊢
      rw [Zipper.onCursor_cursor _ c hc]

end Session

/-! ### The result -/

namespace Cursor

/-- What is known of a cursor over `source` that stands for a zipper and has the calls `history`
behind it. -/
structure Refines (source : String) (history : List CursorCall) (z : Zipper) (c : Cursor) :
    Prop where
  runes_eq : z.runes = source.toList
  cursor_eq : c = z.cursor
  /-- The position is the length of the runes before it. -/
  offset_eq : c.offset = byteLength z.passed
  /-- What lies ahead is the rest of the source. -/
  rest_eq : c.rest = String.ofList z.ahead
  /-- What can be taken back is the last rune before the position, or nothing. -/
  undo_eq : c.undo = 0 ∨ ∃ r, z.passed.getLast? = some r ∧ c.undo = r.utf8Size
  undo_le : c.undo ≤ c.offset
  /-- To take back is to undo the last reading, but for the mark. -/
  unread_reading : ∀ before call marks r, history = before ++ call :: marks →
    call.reads? (after source before) = some r → (∀ m ∈ marks, m.isMarking = true) →
    c.unread = { (after source before).settle with mark := c.mark }
  /-- Behind a call of any other sort there is nothing to take back. -/
  unread_other : ∀ before call marks, history = before ++ call :: marks →
    call.reads? (after source before) = none → call.isMarking = false →
    (∀ m ∈ marks, m.isMarking = true) → c.unread = c
  /-- Nor is there before any such call. -/
  unread_marks : (∀ m ∈ history, m.isMarking = true) → c.unread = c
  /-- A run is the longest one ahead, and its runes are counted. -/
  skipWhile_eq : ∀ p, c.skipWhile p = ((z.ahead.takeWhile p).length,
    { c with offset := c.offset + byteLength (z.ahead.takeWhile p), undo := 0 })
  mark_boundary : Boundary source c.mark
  /-- The mark does not lie past the position, or it lies past the next rune: that rune was read,
  the mark was moved, and the rune was taken back. -/
  mark_cases : c.mark ≤ c.offset ∨ ∃ r, z.ahead.head? = some r ∧ c.mark = c.offset + r.utf8Size ∧
    ∃ marking, marking.isMarking = true ∧
      ReadBefore source history c.offset c.mark [marking, .unread]
  /-- The piece can be cut out exactly where the mark does not lie past the position. -/
  text?_eq : c.text? = if c.mark ≤ c.offset then some (String.ofList z.piece) else none

variable {source : String} {history : List CursorCall}

/-- After calls that were allowed, all of this is known. -/
theorem Admits.refines (h : Admits source history) :
    Refines source history (Zipper.after source history) (after source history) where
  runes_eq := Zipper.runes_after source history
  cursor_eq := h.after_eq
  offset_eq := by
    rw [h.after_eq]
    rfl
  rest_eq := by
    rw [h.after_eq]
    exact Zipper.rest_cursor _
  undo_eq := by
    rw [h.after_eq]
    exact Zipper.cursor_undo_eq _
  undo_le := by
    rw [h.after_eq]
    exact Zipper.cursor_undo_le _
  unread_reading := by
    rintro before call marks r rfl hreads hmarks
    exact unread_after_reading hreads hmarks
  unread_other := by
    rintro before call marks rfl hreads hmarking hmarks
    exact unread_after_other hreads hmarking hmarks
  unread_marks := unread_after_marks
  skipWhile_eq p := by
    rw [h.after_eq, skipWhile, (Zipper.between_cursor _).skipFrom_eq, Nat.zero_add]
  mark_boundary := by
    have hboundary := (Zipper.after source history).boundary_mark
    have hsource : (Zipper.after source history).cursor.source = source := by
      show String.ofList (Zipper.after source history).runes = source
      rw [Zipper.runes_after, String.ofList_toList]
    rwa [hsource, ← h.after_eq] at hboundary
  mark_cases := by
    -- where the mark lies past the place, the calls tell how it got there
    obtain hlt | hle := Nat.lt_or_ge (after source history).offset (after source history).mark
    · have hmarking := h.remembers.past hlt
      refine .inr ?_
      rw [h.after_eq] at hlt
      obtain ⟨r, rest, hahead, -, hmark⟩ := Zipper.exists_ahead_of_lt
        (Nat.lt_of_not_le fun hle => Nat.not_le_of_lt hlt (Zipper.cursor_mark_le_iff.2 hle))
      rw [← h.after_eq] at hmark
      refine ⟨r, ?_, hmark, hmarking⟩
      rw [hahead]
      rfl
    · exact .inl hle
  text?_eq := by
    rw [h.after_eq]
    exact Zipper.text?_cursor _

/-- **A cursor is a zipper with one undo.** Let a session with a cursor over any source be asked
anything that is allowed, copies included. It answers as a session with a zipper does, and its
cursor stands for the zipper of that session, with the calls behind it that the same session has
recorded. -/
theorem refines_zipper (source : String) (calls : List SessionCall)
    (hallows : (Session.start (ofSource source)).Allows calls) :
    Session.answers CursorCall.onCursor (.start (ofSource source)) calls =
        Session.answers CursorCall.onZipper (.start (Zipper.ofSource source)) calls ∧
      Refines source (Session.after Session.record (.start []) calls).current
        (Session.after CursorCall.onZipper (.start (Zipper.ofSource source)) calls).current
        (Session.after CursorCall.onCursor (.start (ofSource source)) calls).current := by
  -- all three sessions are views of the one that records the calls
  have hadmits : ∀ history ∈ (Session.start []).states, Admits source history := by
    intro history hhistory
    rw [List.mem_singleton.1 hhistory]
    exact .nil
  have hcursor := Session.after_map (Session.onCursor_view source) (.start []) calls
  have hzipper := Session.after_map (Session.onZipper_view source) (.start []) calls
  obtain ⟨hanswers, hstates⟩ := Session.answers_eq hadmits hallows
  refine ⟨hanswers, ?_⟩
  have hrefines := (hstates _ List.mem_cons_self).refines
  rw [show Session.start (ofSource source) = (Session.start []).map (after source) from rfl,
    show Session.start (Zipper.ofSource source) =
      (Session.start []).map (Zipper.after source) from rfl, hcursor, hzipper]
  exact hrefines

/-- In the middle of the source a rune is accepted, the mark is moved behind it, and the rune is
taken back. The cursor is copied there, jumps to the end, and goes back to the copy: the mark lies
past the position, and there is no piece. -/
theorem refines_zipper_of_mark_ahead :
    let calls : List SessionCall := [.call .read, .call (.accept (· == 'é')), .call .discard,
      .call .unread, .copy, .call (.jump 9), .call .take, .call .read, .restore 0, .call .peek]
    let c := (Session.after CursorCall.onCursor (.start (ofSource "aé€")) calls).current
    (Session.start (ofSource "aé€")).Allows calls ∧
      Session.answers CursorCall.onZipper (.start (Zipper.ofSource "aé€")) calls =
        [.rune (some 'a'), .accepted true, .nothing, .nothing, .nothing, .nothing,
          .piece "€" ⟨3, 6⟩, .rune none, .nothing, .rune (some 'é')] ∧
      c.offset = 1 ∧ c.mark = 3 ∧ c.text? = none := by
  intro calls c
  have hallows : (Session.start (ofSource "aé€")).Allows calls := by decide +kernel
  obtain ⟨hanswers, hrefines⟩ := refines_zipper "aé€" calls hallows
  have hoffset : c.offset = 1 := by decide +kernel
  have hmark : c.mark = 3 := by decide +kernel
  refine ⟨hallows, ?_, hoffset, hmark, ?_⟩
  · rw [← hanswers]
    decide +kernel
  · rw [hrefines.text?_eq]
    apply if_neg
    show ¬ c.mark ≤ c.offset
    rw [hoffset, hmark]
    decide

end Cursor

end DeclFront
