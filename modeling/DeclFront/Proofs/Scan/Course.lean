import DeclFront.Proofs.Scan.Lossless

/-!
# The course of a scan

A scan is a loop: it runs a state, goes on with the successor that the state names, and halts where
there is none. `Scanner.HaltsAfter` is that loop with its steps counted, for any sink, and without
the bound that `Scanner.run` is given.

The loop halts after two steps for each rune of the source and one more, at most. In bytes this is
the weight that every step lessens; it carries over to runes because a step that reads a byte reads
a whole rune, and a step that reads nothing lessens the slack of its state (`Ready.runeWeight_lt`).
A sink that refuses a token only shortens the loop.

What a scan leaves behind is its `Course`. Only the last token can be a failure or an end marker: a
step that leads on emits neither. Such a token lies beyond all others, since it begins at the mark
or after it. Without one, the last step was taken between tokens, at the end of the source, with no
bracket open.

* `Scanner.halts_within`: the loop halts, in so many steps, and says how.
* `pairwise_span_lexWith`: the tokens of a source lie one after another, the last one included.
-/

namespace DeclFront

/-! ### Runes left to read -/

/-- No rune takes less than a byte. -/
theorem length_le_byteLength (runes : List Char) : runes.length ≤ byteLength runes := by
  induction runes with
  | nil => exact Nat.le_refl 0
  | cons r runes ih =>
    have hpos := Char.utf8Size_pos r
    rw [List.length_cons, byteLength_cons]
    omega

namespace Cursor

variable {c c' : Cursor}

/-- How many runes are left to read. -/
def runesLeft (c : Cursor) : Nat :=
  c.rest.length

theorem Between.runesLeft_eq {before ahead : List Char} (h : c.Between before ahead) :
    c.runesLeft = ahead.length := by
  have hsource : c.source.toList = before ++ (ahead ++ []) := by
    rw [List.append_nil]
    exact h.1
  have hsize : c.source.utf8ByteSize = byteLength before + byteLength ahead := by
    rw [utf8ByteSize_eq_byteLength, h.1, byteLength_append]
  rw [runesLeft, rest, h.2, hsize, slice_append hsource, String.length_ofList]

theorem Between.remaining_eq {before ahead : List Char} (h : c.Between before ahead) :
    c.remaining = byteLength ahead := by
  rw [remaining, utf8ByteSize_eq_byteLength, h.1, byteLength_append, h.2]
  omega

theorem Sound.exists_between (h : c.Sound) : ∃ before ahead, c.Between before ahead := by
  obtain ⟨before, piece, ahead, hc⟩ := h
  exact ⟨before ++ piece, ahead, hc.between⟩

theorem Sound.runesLeft_le_remaining (h : c.Sound) : c.runesLeft ≤ c.remaining := by
  obtain ⟨before, ahead, hc⟩ := h.exists_between
  rw [hc.runesLeft_eq, hc.remaining_eq]
  exact length_le_byteLength ahead

/-- Where no rune is left, the position is the end of the source. -/
theorem Sound.offset_eq_of_head? (h : c.Sound) (hhead : c.head? = none) :
    c.offset = c.source.utf8ByteSize := by
  obtain ⟨before, ahead, hc⟩ := h.exists_between
  have hahead : ahead = [] := List.head?_eq_none_iff.1 (hc.head?_eq.symm.trans hhead)
  rw [utf8ByteSize_eq_byteLength, hc.1, hahead, List.append_nil, hc.2]

/-- At the end of the source no rune is left. -/
theorem Sound.head?_eq_none (h : c.Sound) (hoffset : c.offset = c.source.utf8ByteSize) :
    c.head? = none := by
  obtain ⟨before, ahead, hc⟩ := h.exists_between
  have hlength := length_le_byteLength ahead
  rw [utf8ByteSize_eq_byteLength, hc.1, byteLength_append, hc.2] at hoffset
  have hahead : ahead = [] := List.eq_nil_of_length_eq_zero (by omega)
  rw [hc.head?_eq, hahead]
  rfl

/-- Moving forward takes whole runes. -/
theorem Onward.exists_taken (h : Onward c c') (hc : c.Sound) :
    ∃ taken : List Char, c.runesLeft = taken.length + c'.runesLeft ∧
      c.remaining = byteLength taken + c'.remaining := by
  obtain ⟨before, ahead, hat⟩ := hc.exists_between
  obtain ⟨before', ahead', hat'⟩ := h.sound.exists_between
  have hsame : before ++ ahead = before' ++ ahead' := by
    rw [← hat.1, ← hat'.1, h.source_eq]
  have hle : byteLength before ≤ byteLength before' := by
    rw [← hat.2, ← hat'.2]
    exact h.offset_le
  -- two ways to split one list of runes: the second place lies no nearer than the first
  obtain ⟨taken, -, hahead⟩ | ⟨taken, hbefore, hahead⟩ := List.append_eq_append_iff.1 hsame
  · refine ⟨taken, ?_, ?_⟩
    · rw [hat.runesLeft_eq, hat'.runesLeft_eq, hahead, List.length_append]
    · rw [hat.remaining_eq, hat'.remaining_eq, hahead, byteLength_append]
  · have hnone : taken = [] := by
      -- then nothing lies between the places
      have hlength := length_le_byteLength taken
      rw [hbefore, byteLength_append] at hle
      exact List.eq_nil_of_length_eq_zero (by omega)
    rw [hnone, List.nil_append] at hahead
    refine ⟨[], ?_, ?_⟩
    · rw [hat.runesLeft_eq, hat'.runesLeft_eq, hahead, List.length_nil, Nat.zero_add]
    · rw [hat.remaining_eq, hat'.remaining_eq, hahead, byteLength_nil, Nat.zero_add]

end Cursor

/-! ### Processes and their sinks -/

namespace Emitter

variable {α β σ : Type} [TokenSink σ]

/-- A sequence of two processes hands its tokens to the sink one process after the other. -/
theorem into_bind (e : Emitter α) (next : α → Emitter β) (sink : σ) :
    (e.bind next).into sink = (next (e.into sink).1).into (e.into sink).2 := by
  induction e generalizing sink with
  | halt a => rfl
  | offer t resume ih => exact ih _ _

/-- A process that halts when refused comes to its result, or was refused. -/
theorem HaltsWhenRefused.into_eq_or {P : α → Prop} {e : Emitter α} (h : e.HaltsWhenRefused P)
    (sink : σ) : (e.into sink).1 = e.result ∨ P (e.into sink).1 := by
  induction e generalizing sink with
  | halt a => exact .inl rfl
  | offer t resume ih =>
    obtain ⟨⟨a, ha, hrefused⟩, htaken⟩ := h
    show ((resume (TokenSink.receive sink t).1).into (TokenSink.receive sink t).2).1 =
        (resume true).result ∨
      P ((resume (TokenSink.receive sink t).1).into (TokenSink.receive sink t).2).1
    cases (TokenSink.receive sink t).1 with
    | true => exact ih true htaken _
    | false =>
      rw [hrefused]
      exact .inr ha

/-- A store without a limit takes all tokens. -/
theorem into_store (e : Emitter α) (held : Array Token) :
    e.into (⟨none, held⟩ : TokenStore) = (e.result, ⟨none, held ++ e.tokens.toArray⟩) := by
  induction e generalizing held with
  | halt a => simp [into, result]
  | offer t resume ih =>
    show (resume true).into (⟨none, held.push t⟩ : TokenStore) = _
    rw [ih true, result, tokens_offer]
    simp

end Emitter

namespace Scanner

variable {s s' : Scanner} {state next : ScanState}

/-! ### The loop -/

section Loop

variable {σ : Type} [TokenSink σ] {sink sink' : σ} {n : Nat} {current : Option ScanState}

/-- **The loop of a scan.** From the state `current`, or from none, a scan into the sink `sink`
halts after `n` steps, and leaves the scanner `s'` and the sink `sink'`. -/
inductive HaltsAfter : Scanner → Option ScanState → σ → Nat → Scanner → σ → Prop
  | halted (s : Scanner) (sink : σ) : HaltsAfter s none sink 0 s sink
  | step {s s₁ s' : Scanner} {state : ScanState} {next : Option ScanState} {sink sink₁ sink' : σ}
      {n : Nat} (hstep : (s.step state).into sink = ((next, s₁), sink₁))
      (rest : HaltsAfter s₁ next sink₁ n s' sink') : HaltsAfter s (some state) sink (n + 1) s' sink'

/-- The loop goes one way only. -/
theorem HaltsAfter.unique {s'' : Scanner} {sink'' : σ} {m : Nat}
    (h : HaltsAfter s current sink n s' sink') (h' : HaltsAfter s current sink m s'' sink'') :
    n = m ∧ s' = s'' ∧ sink' = sink'' := by
  induction h generalizing m with
  | halted =>
    cases h'
    exact ⟨rfl, rfl, rfl⟩
  | step hstep _ ih =>
    cases h' with
    | step hstep' rest' =>
      rw [hstep, Prod.mk.injEq, Prod.mk.injEq] at hstep'
      obtain ⟨⟨rfl, rfl⟩, rfl⟩ := hstep'
      obtain ⟨rfl, hs, hsink⟩ := ih rest'
      exact ⟨rfl, hs, hsink⟩

/-- A bound that is no less than the number of steps makes no difference. -/
theorem HaltsAfter.into_drive (h : HaltsAfter s current sink n s' sink') {bound : Nat}
    (hbound : n ≤ bound) : (drive bound s current).into sink = (s', sink') := by
  induction h generalizing bound with
  | halted => rw [drive_none]; rfl
  | step hstep _ ih =>
    obtain ⟨bound, rfl⟩ : ∃ k, bound = k + 1 := ⟨bound - 1, by omega⟩
    rw [drive, Emitter.into_bind, hstep]
    exact ih (by omega)

end Loop

/-! ### Every step lessens the weight in runes -/

/-- How many steps a scan can still take from a state, at most, counted by runes. -/
def runeWeight (s : Scanner) (state : ScanState) : Nat :=
  2 * s.cursor.runesLeft + state.slack

/-- The slack of a state is two at most. -/
theorem slack_le_two (state : ScanState) : state.slack ≤ 2 := by
  cases state <;> decide

/-- Every second state of a scan is the neutral one. -/
theorem eq_neutral_or_of_next (h : (s.step state).result = (some next, s')) :
    state = .neutral ∨ next = .neutral := by
  have hdoes := does_step s state
  generalize s.step state = step at hdoes h
  cases hdoes with
  | beginRun | beginQuoted | beginChar | beginComment => exact .inl rfl
  | finish | unclosed | stray | unknown | cut | cutEmpty | badChar | badNumber | badWord => cases h
  | _ =>
    cases h
    exact .inr rfl

/-- The slack grows by one at most from a step to the next. -/
theorem slack_le_of_next (h : (s.step state).result = (some next, s')) :
    next.slack ≤ state.slack + 1 := by
  obtain rfl | rfl := eq_neutral_or_of_next h
  · exact slack_le_two next
  · exact Nat.le_add_left 1 _

/-- **A step lessens the weight in runes.** -/
theorem Ready.runeWeight_lt (h : s.Ready state) (hsound : s.cursor.Sound)
    (hnext : (s.step state).result = (some next, s')) :
    s'.cursor.Sound ∧ s'.runeWeight next < s.runeWeight state := by
  have honward : s.cursor.Onward s'.cursor := by
    have hsafe := (safe_step hsound state).tokens.1
    rwa [hnext] at hsafe
  have hweight := (h.step next s' hnext).2
  have hslack := slack_le_of_next hnext
  obtain ⟨taken, hrunes, hbytes⟩ := honward.exists_taken hsound
  refine ⟨honward.sound, ?_⟩
  unfold weight at hweight
  unfold runeWeight
  cases taken with
  | nil =>
    -- nothing was read, so it is the slack that has got less
    rw [byteLength_nil] at hbytes
    rw [List.length_nil] at hrunes
    omega
  | cons r taken =>
    -- a rune pays for two steps, and the slack grows by one at most
    rw [List.length_cons] at hrunes
    omega

/-- A state that is entered as it should be has a step left to take. -/
theorem Ready.runeWeight_pos (h : s.Ready state) (hsound : s.cursor.Sound) :
    0 < s.runeWeight state := by
  have hweight := h.weight_pos
  unfold weight at hweight
  unfold runeWeight
  by_cases hslack : state.slack = 0
  · -- the state is entered at a rune
    obtain ⟨before, ahead, hc⟩ := hsound.exists_between
    rw [hc.remaining_eq] at hweight
    rw [hc.runesLeft_eq]
    cases ahead with
    | nil =>
      rw [byteLength_nil] at hweight
      omega
    | cons r ahead =>
      rw [List.length_cons]
      omega
  · omega

/-- **The loop halts**, after no more steps than its weight. -/
theorem Ready.exists_haltsAfter {σ : Type} [TokenSink σ] (h : s.Ready state)
    (hsound : s.cursor.Sound) (sink : σ) :
    ∃ n s' sink', HaltsAfter s (some state) sink n s' sink' ∧ n ≤ s.runeWeight state := by
  -- on the weight, which every step lessens
  obtain ⟨w, hw⟩ : ∃ w, w = s.runeWeight state := ⟨_, rfl⟩
  induction w using Nat.strongRecOn generalizing s state sink with
  | _ w ih =>
    have hpos := h.runeWeight_pos hsound
    have hyields := (step_haltsWhenRefused s state).into_eq_or sink
    rcases hstep : (s.step state).into sink with ⟨⟨next, s₁⟩, sink₁⟩
    rw [hstep] at hyields
    cases next with
    | none => exact ⟨1, s₁, sink₁, .step hstep (.halted s₁ sink₁), hpos⟩
    | some next =>
      -- where there is a successor, no token was refused
      have hnext : (s.step state).result = (some next, s₁) := by
        obtain hresult | hrefused := hyields
        · exact hresult.symm
        · cases hrefused
      obtain ⟨hsound₁, hlt⟩ := h.runeWeight_lt hsound hnext
      have hready₁ := (h.step next s₁ hnext).1
      obtain ⟨n, s', sink', hrest, hn⟩ := ih _ (hw ▸ hlt) hready₁ hsound₁ sink₁ rfl
      exact ⟨n + 1, s', sink', .step hstep hrest, by omega⟩

/-! ### What a scan leaves behind -/

/-- How a scan has gone that emitted the tokens `ts` and left the scanner `s`. -/
structure Course (ts : List Token) (s : Scanner) : Prop where
  /-- Only the last token can be a failure or an end marker. -/
  plain : ∀ t ∈ ts.dropLast, t.kind.isFinal = false
  /-- If it is one, it does not begin before the mark. -/
  beyond : ∀ t ∈ ts, t.kind.isFinal = true → s.cursor.mark ≤ t.span.start
  /-- If there is none, everything was read and no bracket is open. -/
  done : (∀ t ∈ ts, t.kind.isFinal = false) →
    s.cursor.head? = none ∧ s.parens = 0 ∧ s.braces = 0

/-- A single token that is a failure or an end marker. -/
theorem course_single {t : Token} (hfinal : t.kind.isFinal = true)
    (hmark : s.cursor.mark ≤ t.span.start) : Course [t] s where
  plain u hu := by cases hu
  beyond u hu _ := by
    obtain rfl := List.mem_singleton.1 hu
    exact hmark
  done hplain := by
    rw [hplain t (List.mem_singleton_self t)] at hfinal
    cases hfinal

/-- A failure that does not begin before the mark. -/
theorem course_fail {c : Cursor} (message : String) {span : Span} (hmark : c.mark ≤ span.start) :
    Course (s.fail c message span).tokens (s.fail c message span).result.2 :=
  course_single (t := ⟨.error, message, span⟩) rfl hmark

/-- A failure of the whole piece. -/
theorem course_fail_span (c : Cursor) (message : String) :
    Course (s.fail c message c.span).tokens (s.fail c message c.span).result.2 :=
  course_fail message (Nat.le_refl c.mark)

/-- Tokens before it that are neither failures nor end markers. -/
theorem Course.prepend {ts us : List Token} (h : Course ts s)
    (hus : ∀ t ∈ us, t.kind.isFinal = false) : Course (us ++ ts) s where
  plain t ht := by
    by_cases hts : ts = []
    · rw [hts, List.append_nil] at ht
      exact hus t (List.mem_of_mem_dropLast ht)
    · rw [List.dropLast_append_of_ne_nil hts] at ht
      obtain ht | ht := List.mem_append.1 ht
      · exact hus t ht
      · exact h.plain t ht
  beyond t ht hfinal := by
    obtain ht | ht := List.mem_append.1 ht
    · rw [hus t ht] at hfinal
      cases hfinal
    · exact h.beyond t ht hfinal
  done hplain := h.done fun t ht => hplain t (List.mem_append_right us ht)

/-- **A step that leads on** emits neither a failure nor an end marker. -/
theorem isFinal_eq_false_of_next (h : (s.step state).result = (some next, s')) :
    ∀ t ∈ (s.step state).tokens, t.kind.isFinal = false := by
  have hdoes := does_step s state
  generalize s.step state = step at hdoes h ⊢
  intro t ht
  cases hdoes with
  -- these steps name no successor
  | finish | unclosed | stray | unknown | cut | cutEmpty | badChar | badNumber | badWord => cases h
  -- and these emit nothing
  | beginRun | beginQuoted | beginChar | beginComment | pass => cases ht
  | slash | opening | closing | literal | char | sign | number =>
    obtain rfl := List.mem_singleton.1 ht
    rfl
  | report collects =>
    obtain rfl := List.mem_singleton.1 ht
    cases collects <;> rfl
  | closeKept encloses | closeDropped encloses =>
    obtain rfl := List.mem_singleton.1 ht
    cases encloses <;> rfl
  | word =>
    obtain rfl := List.mem_singleton.1 ht
    exact TokenKind.isFinal_of_isWhole (TokenKind.isWhole_ofWord _)

/-- **The last step** ends a course. -/
theorem course_of_stop (hsound : s.cursor.Sound) (hstop : (s.step state).result.1 = none) :
    Course (s.step state).tokens (s.step state).result.2 := by
  have here : s.cursor.Onward s.cursor := .refl hsound
  have hdoes := does_step s state
  generalize s.step state = step at hdoes hstop ⊢
  cases hdoes with
  | finish hhead hclosed =>
    rw [not_or, not_not, not_not] at hclosed
    refine ⟨fun t ht => ?_, fun t ht => ?_, fun _ => ⟨hhead, hclosed⟩⟩
    · cases ht
    · cases ht
  | unclosed => exact course_fail _ hsound.mark_le_offset
  -- these failures begin where the piece does
  | stray | unknown | badChar | badNumber => exact course_fail_span _ _
  | badWord => exact course_fail _ (here.skip continuesWord).sound.mark_le_offset
  | @cut _ form c encloses hseek =>
    -- the piece is emitted first, and the mark moved past it
    have hpiece : ∀ t ∈ [(⟨form.kind, c.pending, c.span⟩ : Token)], t.kind.isFinal = false := by
      intro t ht
      obtain rfl := List.mem_singleton.1 ht
      cases encloses <;> rfl
    exact (course_single rfl (Nat.le_refl _)).prepend hpiece
  | cutEmpty encloses hseek =>
    exact course_single rfl (here.seek encloses.closer_ne_nil hseek).sound.mark_le_offset
  | _ => cases hstop

/-- **The course of a scan** into a store without a limit. -/
theorem HaltsAfter.exists_course {current : Option ScanState} {store store' : TokenStore} {n : Nat}
    (h : HaltsAfter s current store n s' store') (hlimit : store.limit = none)
    (hsound : s.cursor.Sound) (hcurrent : current ≠ none) :
    ∃ ts, store'.held.toList = store.held.toList ++ ts ∧ Course ts s' ∧
      s'.cursor.Sound ∧ s'.cursor.source = s.cursor.source := by
  induction h with
  | halted => exact absurd rfl hcurrent
  | @step s s₁ s' state next store store₁ store' n hstep rest ih =>
    obtain ⟨limit, held⟩ := store
    obtain rfl : limit = none := hlimit
    have honward := (safe_step hsound state).tokens.1
    rw [Emitter.into_store, Prod.mk.injEq] at hstep
    obtain ⟨hresult, rfl⟩ := hstep
    rw [hresult] at honward
    cases next with
    | none =>
      -- this is the last step, so nothing is left to run
      cases rest
      have hstop : (s.step state).result.1 = none := by rw [hresult]
      have hcourse := course_of_stop hsound hstop
      rw [hresult] at hcourse
      exact ⟨_, by simp, hcourse, honward.sound, honward.source_eq⟩
    | some next =>
      obtain ⟨ts, hheld, hcourse, hsound', hsource⟩ := ih rfl honward.sound (Option.some_ne_none _)
      refine ⟨(s.step state).tokens ++ ts, ?_, hcourse.prepend (isFinal_eq_false_of_next hresult),
        hsound', hsource.trans honward.source_eq⟩
      rw [hheld]
      simp

/-! ### The whole scan -/

section Source

variable {source : String} {options : ScanOptions} {σ : Type} [TokenSink σ] {sink sink' : σ}
  {n : Nat}

theorem runeWeight_ofSource (source : String) (options : ScanOptions) :
    (ofSource source options).runeWeight .neutral = 2 * source.length + 1 := by
  have hrunes : (Cursor.ofSource source).runesLeft = source.toList.length :=
    (Cursor.between_ofSource source).runesLeft_eq
  show 2 * (Cursor.ofSource source).runesLeft + 1 = _
  rw [hrunes, String.length_toList]

/-- Two steps for each rune, and one at the end. -/
theorem HaltsAfter.le_of_ofSource
    (h : HaltsAfter (ofSource source options) (some .neutral) sink n s' sink') :
    n ≤ 2 * source.length + 1 := by
  have hsound : (ofSource source options).cursor.Sound := Cursor.sound_ofSource source
  obtain ⟨m, s₁, sink₁, hhalts, hm⟩ := (ready_neutral _).exists_haltsAfter hsound sink
  obtain ⟨rfl, -, -⟩ := h.unique hhalts
  rwa [runeWeight_ofSource] at hm

/-- The bound of a scan is in bytes, so it is no less than the steps of the loop. -/
theorem HaltsAfter.into_run
    (h : HaltsAfter (ofSource source options) (some .neutral) sink n s' sink') :
    (ofSource source options).run.into sink = (s', sink') := by
  have hsound : (ofSource source options).cursor.Sound := Cursor.sound_ofSource source
  have hbytes := hsound.runesLeft_le_remaining
  have hsteps := h.le_of_ofSource
  rw [← runeWeight_ofSource source options, runeWeight] at hsteps
  exact h.into_drive (hsteps.trans (Nat.add_le_add_right (Nat.mul_le_mul_left 2 hbytes) 1))

/-- What a scan of a source leaves behind. -/
theorem course_ofSource (source : String) (options : ScanOptions) :
    Course (lexWith options source) (ofSource source options).run.result ∧
      (ofSource source options).run.result.cursor.Sound ∧
      (ofSource source options).run.result.cursor.source = source := by
  have hsound : (ofSource source options).cursor.Sound := Cursor.sound_ofSource source
  obtain ⟨n, s', store, hhalts, -⟩ :=
    (ready_neutral _).exists_haltsAfter hsound (TokenStore.empty none)
  obtain ⟨ts, hheld, hcourse, hsound', hsource⟩ :=
    hhalts.exists_course rfl hsound (Option.some_ne_none _)
  -- the store holds the tokens of the drained scan
  have hrun := hhalts.into_run
  rw [TokenStore.empty, Emitter.into_store, Prod.mk.injEq] at hrun
  obtain ⟨rfl, rfl⟩ := hrun
  have hts : ts = lexWith options source := by
    rw [TokenStore.empty, List.nil_append] at hheld
    rw [← hheld]
    simp [lexWith]
  exact ⟨hts ▸ hcourse, hsound', hsource⟩

end Source

/-- **A scan halts, and ends in one of three ways.** Into whatever sink it goes, its loop halts
after two steps for each rune and one more, at most. Where every token is taken, only the last one
can be a failure or an end marker; if there is neither, the whole source was read and no bracket is
open. -/
theorem halts_within (source : String) (options : ScanOptions) :
    (∀ (σ : Type) [TokenSink σ] (sink : σ),
      (∃ n s' sink', HaltsAfter (ofSource source options) (some .neutral) sink n s' sink') ∧
      ∀ n s' sink', HaltsAfter (ofSource source options) (some .neutral) sink n s' sink' →
        n ≤ 2 * source.length + 1 ∧ (ofSource source options).run.into sink = (s', sink')) ∧
    ∀ n s' store, HaltsAfter (ofSource source options) (some .neutral) (TokenStore.empty none) n s'
        store →
      store.held.toList = lexWith options source ∧
      (∀ t ∈ store.held.toList.dropLast, t.kind ≠ .error ∧ t.kind ≠ .endMarker) ∧
      ((∀ t ∈ store.held.toList, t.kind ≠ .error ∧ t.kind ≠ .endMarker) →
        s'.cursor.offset = source.utf8ByteSize ∧ s'.parens = 0 ∧ s'.braces = 0) := by
  refine ⟨fun σ _ sink => ⟨?_, ?_⟩, ?_⟩
  · have hsound : (ofSource source options).cursor.Sound := Cursor.sound_ofSource source
    obtain ⟨n, s', sink', hhalts, -⟩ := (ready_neutral _).exists_haltsAfter hsound sink
    exact ⟨n, s', sink', hhalts⟩
  · intro n s' sink' hhalts
    exact ⟨hhalts.le_of_ofSource, hhalts.into_run⟩
  · intro n s' store hhalts
    obtain ⟨hcourse, hsound, hsource⟩ := course_ofSource source options
    have hrun := hhalts.into_run
    rw [TokenStore.empty, Emitter.into_store, Prod.mk.injEq] at hrun
    obtain ⟨rfl, rfl⟩ := hrun
    have hheld : (#[] ++ (ofSource source options).run.tokens.toArray).toList =
        lexWith options source := by
      simp [lexWith]
    refine ⟨hheld, ?_, ?_⟩
    · intro t ht
      rw [hheld] at ht
      have hplain := hcourse.plain t ht
      refine ⟨?_, ?_⟩
      · intro hkind
        rw [hkind] at hplain
        cases hplain
      · intro hkind
        rw [hkind] at hplain
        cases hplain
    · intro hclean
      rw [hheld] at hclean
      obtain ⟨hhead, hparens, hbraces⟩ := hcourse.done fun t ht =>
        TokenKind.isFinal_eq_false (hclean t ht).1 (hclean t ht).2
      refine ⟨?_, hparens, hbraces⟩
      rw [hsound.offset_eq_of_head? hhead, hsource]

/-- A pair of brackets around a rune of two bytes. -/
theorem halts_within_of_brackets :
    ∃ n s' store, HaltsAfter (ofSource "(é)" ⟨true⟩) (some .neutral) (TokenStore.empty none) n s'
        store ∧
      n ≤ 7 ∧ store.held.toList = [⟨.bracketOpen, "(", ⟨0, 1⟩⟩, ⟨.identifier, "é", ⟨1, 3⟩⟩,
        ⟨.bracketClose, ")", ⟨3, 4⟩⟩] ∧
      s'.cursor.offset = 4 ∧ s'.parens = 0 ∧ s'.braces = 0 := by
  have hlex : lexWith ⟨true⟩ "(é)" = [⟨.bracketOpen, "(", ⟨0, 1⟩⟩, ⟨.identifier, "é", ⟨1, 3⟩⟩,
      ⟨.bracketClose, ")", ⟨3, 4⟩⟩] := by decide +kernel
  obtain ⟨⟨n, s', store, hhalts⟩, hbound⟩ :=
    (halts_within "(é)" ⟨true⟩).1 TokenStore (TokenStore.empty none)
  obtain ⟨hheld, -, hdone⟩ := (halts_within "(é)" ⟨true⟩).2 n s' store hhalts
  refine ⟨n, s', store, hhalts, (hbound n s' store hhalts).1, hheld.trans hlex, hdone ?_⟩
  rw [hheld, hlex]
  decide

end Scanner

/-! ### The order of the tokens -/

/-- **The tokens of a source lie one after another**, a failure or an end marker included. -/
theorem pairwise_span_lexWith (options : ScanOptions) (source : String) :
    (lexWith options source).Pairwise fun t u => t.span.stop ≤ u.span.start := by
  have hsound : (Scanner.ofSource source options).cursor.Sound := Cursor.sound_ofSource source
  have hsent : Sent source 0 (Scanner.ofSource source options).run.result.cursor.mark
      (lexWith options source) :=
    (Scanner.safe_drive _ hsound (some .neutral)).tokens.2
  have hcourse := (Scanner.course_ofSource source options).1
  obtain hnil | ⟨ts, last, hts⟩ := List.eq_nil_or_concat (lexWith options source)
  · rw [hnil]
    exact .nil
  · rw [hts, List.concat_eq_append] at hsent hcourse ⊢
    have hplain : ∀ t ∈ ts, t.kind.isFinal = false := by
      intro t ht
      refine hcourse.plain t ?_
      rwa [List.dropLast_concat]
    have hordered := hsent.ordered
    rw [List.pairwise_append] at hordered ⊢
    refine ⟨?_, List.pairwise_singleton _ _, ?_⟩
    · exact hordered.1.imp_of_mem fun {t u} ht hu h => h (hplain t ht) (hplain u hu)
    · intro t ht u hu
      have hstop := (hsent.within t (List.mem_append_left _ ht) (hplain t ht)).2
      cases hfinal : u.kind.isFinal with
      | false => exact hordered.2.2 t ht u hu (hplain t ht) hfinal
      | true =>
        -- the marks of the scan lie between the two
        calc t.span.stop
            ≤ (Scanner.ofSource source options).run.result.cursor.mark := hstop
          _ ≤ u.span.start := hcourse.beyond u (List.mem_append_right _ hu) hfinal

end DeclFront
