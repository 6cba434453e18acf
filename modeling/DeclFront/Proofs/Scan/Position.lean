import DeclFront.Proofs.Scan.Locality

/-!
# Where a scan stands

A scan holds two offsets into its source, the mark and the position. They lie between runes, the
mark not past the position (`Cursor.Sound`), and neither ever moves back (`Cursor.Onward`). Nothing
is assumed about the order in which the states are run: any state, entered anywhere, keeps this.

What it means for the tokens is said by `Sent`: each token is the text at its span, and those that
are no failure and no end marker follow one another, from the mark before the step up to the mark
after it. `Scanner.safe_step` shows this for one step, whatever becomes of its tokens, and
`Scanner.safe_drive` for a chain of steps.
-/

namespace DeclFront

/-! ### Boundaries -/

/-- The offset lies between two runes of the text, or at one of its ends. -/
def Boundary (text : String) (offset : Nat) : Prop :=
  ∃ before ahead, text.toList = before ++ ahead ∧ offset = byteLength before

/-- A boundary lies in the text. -/
theorem Boundary.le {text : String} {offset : Nat} (h : Boundary text offset) :
    offset ≤ text.utf8ByteSize := by
  obtain ⟨before, ahead, hsplit, rfl⟩ := h
  rw [utf8ByteSize_eq_byteLength, hsplit, byteLength_append]
  exact Nat.le_add_right _ _

namespace Cursor

/-- The mark and the position lie between runes, the mark not past the position. -/
def Sound (c : Cursor) : Prop :=
  ∃ before piece ahead, c.Holds before piece ahead

/-- The cursor `c'` reads the same source as `c`, is sound, and lies no further back. -/
structure Onward (c c' : Cursor) : Prop where
  source_eq : c'.source = c.source
  sound : c'.Sound
  mark_le : c.mark ≤ c'.mark
  offset_le : c.offset ≤ c'.offset

/-- The next rune is the first one ahead. -/
theorem Holds.exists_cons {c : Cursor} {before piece ahead : List Char} {r : Char}
    (h : c.Holds before piece ahead) (hhead : c.head? = some r) : ∃ rest, ahead = r :: rest := by
  rw [h.head?_eq] at hhead
  exact List.head?_eq_some_iff.1 hhead

/-- A new cursor is sound. -/
theorem sound_ofSource (source : String) : (ofSource source).Sound :=
  ⟨_, _, _, holds_ofSource source⟩

namespace Sound

variable {c : Cursor}

/-- The mark is not past the position. -/
theorem mark_le_offset (h : c.Sound) : c.mark ≤ c.offset := by
  obtain ⟨before, piece, ahead, hc⟩ := h
  rw [hc.mark_eq, hc.offset_eq]
  exact Nat.le_add_right _ _

/-- The mark lies between runes. -/
theorem boundary_mark (h : c.Sound) : Boundary c.source c.mark := by
  obtain ⟨before, piece, ahead, hc⟩ := h
  exact ⟨before, piece ++ ahead, hc.source_eq, hc.mark_eq⟩

/-- The position lies between runes. -/
theorem boundary_offset (h : c.Sound) : Boundary c.source c.offset := by
  obtain ⟨before, piece, ahead, hc⟩ := h
  exact ⟨before ++ piece, ahead, hc.between.1, hc.between.2⟩

/-- The next rune ends between runes too. -/
theorem boundary_head (h : c.Sound) {r : Char} (hr : c.head? = some r) :
    Boundary c.source (c.offset + r.utf8Size) := by
  obtain ⟨before, piece, ahead, hc⟩ := h
  obtain ⟨rest, rfl⟩ := hc.exists_cons hr
  refine ⟨before ++ piece ++ [r], rest, ?_, ?_⟩
  · rw [hc.between.1, List.append_assoc _ [r] rest]
    rfl
  · rw [hc.between.2, byteLength_append _ [r]]
    rfl

end Sound

/-- The cursor `c'` has read on from `c`, and has collected what it read. -/
def Extends (c c' : Cursor) : Prop :=
  ∀ ⦃before piece ahead : List Char⦄, c.Holds before piece ahead →
    ∃ taken rest, ahead = taken ++ rest ∧ c'.Holds before (piece ++ taken) rest

namespace Extends

variable {c c' c'' : Cursor} {p : Char → Bool} {found : Bool}

/-- Reading on twice is reading on. -/
theorem trans (h : Extends c c') (h' : Extends c' c'') : Extends c c'' := by
  intro before piece ahead hc
  obtain ⟨first, middle, rfl, hc'⟩ := h hc
  obtain ⟨second, rest, rfl, hc''⟩ := h' hc'
  refine ⟨first ++ second, rest, ?_, ?_⟩
  · rw [List.append_assoc]
  · rwa [List.append_assoc] at hc''

/-- Reading nothing. -/
theorem settle (c : Cursor) : Extends c c.settle := by
  intro before piece ahead hc
  refine ⟨[], ahead, rfl, ?_⟩
  rw [List.append_nil]
  exact hc.settle

/-- Reading the next rune. -/
theorem past {r : Char} (hr : c.head? = some r) : Extends c (c.past r) := by
  intro before piece ahead hc
  -- the rune stands first ahead, so it is taken from there
  obtain ⟨rest, rfl⟩ := hc.exists_cons hr
  exact ⟨[r], rest, rfl, hc.past⟩

/-- A local operation. -/
theorem op {f : Cursor → Cursor} (hf : Local f) (c : Cursor) : Extends c (f c) :=
  fun _ _ _ hc => hf.exists_holds hc

/-- Reading a run. -/
theorem skip (c : Cursor) (p : Char → Bool) : Extends c (c.skip p) :=
  fun _ _ _ hc => ⟨_, _, List.takeWhile_append_dropWhile.symm, hc.skip p⟩

/-- Accepting a rune, whether it passes the test or not. -/
theorem accept (hp : Solid p) (haccept : c.accept p = (found, c')) : Extends c c' := by
  rw [accept_eq, Prod.mk.injEq] at haccept
  rw [← haccept.2]
  exact op (local_skipOne hp) c

/-- Looking for the closing delimiter, whether it comes or not. -/
theorem seek {form : Delimited} (hcloser : form.closer ≠ [])
    (hseek : c.seek form = (found, c')) : Extends c c' := by
  intro before piece ahead hc
  cases found with
  | true =>
    obtain ⟨body, rest, hsplit, hc'⟩ := hc.of_seek_found hcloser hseek
    exact ⟨body, form.closer ++ rest, hsplit, hc'⟩
  | false => exact ⟨ahead, [], (List.append_nil ahead).symm, hc.of_seek_lost hcloser hseek⟩

/-- Reading a character constant, whether it is closed or not. -/
theorem readChar (hread : c.readChar = (found, c')) : Extends c c' := by
  intro before piece ahead hc
  have hmore := hc
  rw [← List.append_nil ahead] at hmore
  cases readsChar ahead with
  -- what comes after it makes no difference, so nothing is put there
  | closed taken rest split holds | broken taken rest split last holds =>
    obtain ⟨c₁, hread₁, hc₁⟩ := holds hmore
    rw [hread₁, Prod.mk.injEq] at hread
    rw [List.append_nil, hread.2] at hc₁
    exact ⟨taken, rest, split, hc₁⟩
  | cut noLine holds =>
    obtain ⟨c₁, hread₁, hc₁⟩ := holds hc
    rw [hread₁, Prod.mk.injEq] at hread
    rw [hread.2] at hc₁
    exact ⟨ahead, [], (List.append_nil ahead).symm, hc₁⟩

end Extends

namespace Onward

variable {c c' c'' : Cursor} {p : Char → Bool} {found : Bool}

/-- A sound cursor has not moved back from itself. -/
theorem refl (h : c.Sound) : Onward c c :=
  ⟨rfl, h, Nat.le_refl _, Nat.le_refl _⟩

/-- Moving on twice is moving on. -/
theorem trans (h : Onward c c') (h' : Onward c' c'') : Onward c c'' :=
  ⟨h'.source_eq.trans h.source_eq, h'.sound, h.mark_le.trans h'.mark_le,
    h.offset_le.trans h'.offset_le⟩

/-- A cursor that has taken runes from ahead into its piece. -/
theorem of_holds {before piece taken rest : List Char} (h : c.Holds before piece (taken ++ rest))
    (h' : c'.Holds before (piece ++ taken) rest) : Onward c c' where
  source_eq := by
    -- both hold the same runes, split in different places
    refine String.toList_inj.1 (h'.source_eq.trans ?_)
    rw [h.source_eq, List.append_assoc]
  sound := ⟨_, _, _, h'⟩
  mark_le := by rw [h.mark_eq, h'.mark_eq]
  offset_le := by
    rw [h.offset_eq, h'.offset_eq, byteLength_append]
    omega

/-- Reading on moves forward. -/
theorem extend (h : Onward c c') (hread : Extends c' c'') : Onward c c'' := by
  obtain ⟨before, piece, ahead, hc'⟩ := h.sound
  obtain ⟨taken, rest, rfl, hc''⟩ := hread hc'
  exact h.trans (of_holds hc' hc'')

/-- Moving the mark up to the position. -/
theorem discard (h : Onward c c') : Onward c c'.discard := by
  obtain ⟨before, piece, ahead, hc'⟩ := h.sound
  exact ⟨h.source_eq, ⟨_, _, _, hc'.discard⟩, h.mark_le.trans h.sound.mark_le_offset, h.offset_le⟩

/-- Moving on by reading nothing. -/
theorem settle (h : Onward c c') : Onward c c'.settle :=
  h.extend (.settle c')

/-- Moving on past the next rune. -/
theorem past (h : Onward c c') {r : Char} (hr : c'.head? = some r) : Onward c (c'.past r) :=
  h.extend (.past hr)

/-- Moving on by a local operation. -/
theorem op (h : Onward c c') {f : Cursor → Cursor} (hf : Local f) : Onward c (f c') :=
  h.extend (.op hf c')

/-- Moving on past a run. -/
theorem skip (h : Onward c c') (p : Char → Bool) : Onward c (c'.skip p) :=
  h.extend (.skip c' p)

/-- Moving on past a rune that is accepted, or staying in front of it. -/
theorem accept (h : Onward c c') (hp : Solid p) (haccept : c'.accept p = (found, c'')) :
    Onward c c'' :=
  h.extend (.accept hp haccept)

/-- Moving on in search of a closer. -/
theorem seek (h : Onward c c') {form : Delimited} (hcloser : form.closer ≠ [])
    (hseek : c'.seek form = (found, c'')) : Onward c c'' :=
  h.extend (.seek hcloser hseek)

/-- Moving on over a character constant. -/
theorem readChar (h : Onward c c') (hread : c'.readChar = (found, c'')) : Onward c c'' :=
  h.extend (.readChar hread)

end Onward

/-- Where the closing delimiter is found, there is room to move past it. -/
theorem Sound.jump_closer {c c' : Cursor} (h : c.Sound) {form : Delimited}
    (hcloser : form.closer ≠ []) (hseek : c.seek form = (true, c')) :
    Onward c' (c'.jump (byteLength form.closer)) ∧
      Onward c'.discard (c'.discard.jump (byteLength form.closer)) := by
  obtain ⟨before, piece, ahead, hc⟩ := h
  obtain ⟨body, rest, -, hc'⟩ := hc.of_seek_found hcloser hseek
  exact ⟨.of_holds hc' hc'.jump, .of_holds hc'.discard hc'.discard.jump⟩

end Cursor

/-! ### The tokens that are sent -/

/-- Whether a token of the kind is the last one of a scan: a failure or an end marker. -/
def TokenKind.isFinal : TokenKind → Bool
  | error | endMarker => true
  | _ => false

/-- Only failures and end markers are final. -/
theorem TokenKind.isFinal_eq_false {kind : TokenKind} (herror : kind ≠ .error)
    (hend : kind ≠ .endMarker) : kind.isFinal = false := by
  cases kind with
  | error => exact absurd rfl herror
  | endMarker => exact absurd rfl hend
  | _ => rfl

/-- The token stands in the source: its span lies between runes, and its text is what stands there,
unless it is a failure or an end marker. -/
structure Token.Sits (source : String) (t : Token) : Prop where
  start_le : t.span.start ≤ t.span.stop
  start_boundary : Boundary source t.span.start
  stop_boundary : Boundary source t.span.stop
  text_eq : t.kind.isFinal = false → t.text = slice source t.span.start t.span.stop

/-- The tokens stand in the source, and those that are neither failures nor end markers lie one
after another between the offsets `low` and `high`. -/
structure Sent (source : String) (low high : Nat) (ts : List Token) : Prop where
  sits : ∀ t ∈ ts, t.Sits source
  within : ∀ t ∈ ts, t.kind.isFinal = false → low ≤ t.span.start ∧ t.span.stop ≤ high
  ordered : ts.Pairwise fun t u =>
    t.kind.isFinal = false → u.kind.isFinal = false → t.span.stop ≤ u.span.start

namespace Sent

variable {source : String} {low middle high : Nat} {t : Token} {ts us : List Token}

/-- No tokens. -/
theorem nil : Sent source low high [] where
  sits t ht := by cases ht
  within t ht := by cases ht
  ordered := .nil

/-- A single token. -/
theorem single (hsits : t.Sits source)
    (hwithin : t.kind.isFinal = false → low ≤ t.span.start ∧ t.span.stop ≤ high) :
    Sent source low high [t] where
  sits u hu := by
    obtain rfl := List.mem_singleton.1 hu
    exact hsits
  within u hu := by
    obtain rfl := List.mem_singleton.1 hu
    exact hwithin
  ordered := List.pairwise_singleton _ _

/-- Tokens up to an offset, and tokens from there on. -/
theorem append (h : Sent source low middle ts) (h' : Sent source middle high us)
    (hlow : low ≤ middle) (hhigh : middle ≤ high) : Sent source low high (ts ++ us) where
  sits t ht := by
    obtain ht | ht := List.mem_append.1 ht
    · exact h.sits t ht
    · exact h'.sits t ht
  within t ht hkind := by
    obtain ht | ht := List.mem_append.1 ht
    · have hwithin := h.within t ht hkind
      exact ⟨hwithin.1, hwithin.2.trans hhigh⟩
    · have hwithin := h'.within t ht hkind
      exact ⟨hlow.trans hwithin.1, hwithin.2⟩
  ordered := by
    refine List.pairwise_append.2 ⟨h.ordered, h'.ordered, fun t ht u hu hkind hkind' => ?_⟩
    exact (h.within t ht hkind).2.trans (h'.within u hu hkind').1

end Sent

/-! ### What holds however a process is answered -/

namespace Emitter

variable {α β : Type}

/-- Whatever becomes of the tokens, `Q` holds of the tokens that were offered and the result. -/
def Always (Q : List Token → α → Prop) : Emitter α → Prop
  | halt a => Q [] a
  | offer t resume => ∀ taken, (resume taken).Always fun ts a => Q (t :: ts) a

/-- What follows from it always holds as well. -/
theorem Always.mono {Q Q' : List Token → α → Prop} (hQ : ∀ ts a, Q ts a → Q' ts a) {e : Emitter α}
    (h : e.Always Q) : e.Always Q' := by
  induction e generalizing Q Q' with
  | halt a => exact hQ _ _ h
  | offer t resume ih =>
    intro taken
    exact ih taken (fun ts a => hQ (t :: ts) a) (h taken)

/-- What holds of both parts of a sequence. -/
theorem Always.bind {Q : List Token → α → Prop} {R : List Token → β → Prop} {e : Emitter α}
    {next : α → Emitter β} (h : e.Always Q)
    (hnext : ∀ ts a, Q ts a → (next a).Always fun us b => R (ts ++ us) b) :
    (e.bind next).Always R := by
  induction e generalizing Q R with
  | halt a => exact hnext [] a h
  -- the token goes in front of those that both parts offer
  | offer t resume ih =>
    intro taken
    exact ih taken (h taken) fun ts a => hnext (t :: ts) a

/-- What always holds, holds if every token is taken. -/
theorem Always.tokens {Q : List Token → α → Prop} {e : Emitter α} (h : e.Always Q) :
    Q e.tokens e.result := by
  induction e generalizing Q with
  | halt a => exact h
  | offer t resume ih => exact ih true (h true)

/-- The tokens that a process offers to a sink, whether they are taken or not. -/
def offers {σ : Type} [TokenSink σ] : Emitter α → σ → List Token
  | halt _, _ => []
  | offer t resume, sink =>
    t :: (resume (TokenSink.receive sink t).1).offers (TokenSink.receive sink t).2

/-- What always holds, holds with every sink. -/
theorem Always.offers {σ : Type} [TokenSink σ] {Q : List Token → α → Prop} {e : Emitter α}
    (h : e.Always Q) (sink : σ) : Q (e.offers sink) (e.into sink).1 := by
  induction e generalizing Q sink with
  | halt a => exact h
  | offer t resume ih => exact ih _ (h _) _

end Emitter

/-! ### Steps -/

namespace Scanner

/-- Whatever becomes of its tokens, the step leaves the scanner sound and no further back than `c`,
and its tokens lie between the two marks. -/
def Safe (c : Cursor) (step : ScanStep) : Prop :=
  step.Always fun ts ending =>
    c.Onward ending.2.cursor ∧ Sent c.source c.mark ending.2.cursor.mark ts

variable {s : Scanner} {c c' : Cursor} {kind : TokenKind}

/-- Going on is safe, if the cursor has not moved back. -/
theorem safe_goto (h : c.Onward c') (next : ScanState) : Safe c (s.goto c' next) :=
  ⟨h, .nil⟩

/-- The piece that a sound cursor has collected stands in its source. -/
theorem sits_of_sound (h : c.Sound) (kind : TokenKind) :
    Token.Sits c.source ⟨kind, c.pending, c.span⟩ :=
  ⟨h.mark_le_offset, h.boundary_mark, h.boundary_offset, fun _ => rfl⟩

/-- A token is made of the piece, and the mark moves past it whether it is taken or not. -/
theorem safe_emitThen (h : c.Onward c') {after : Scanner → ScanStep}
    (hafter : Safe c'.discard (after (s.moveTo c'.discard))) :
    Safe c (s.emitThen c' kind after) := by
  have htoken : Sent c.source c.mark c'.discard.mark [⟨kind, c'.pending, c'.span⟩] := by
    refine Sent.single ?_ fun _ => ⟨h.mark_le, Nat.le_refl _⟩
    rw [← h.source_eq]
    exact sits_of_sound h.sound kind
  intro taken
  cases taken with
  -- refused, the scan ends with the mark past the piece
  | false => exact ⟨h.discard, htoken⟩
  | true =>
    -- taken, what follows begins where the piece ends
    refine Emitter.Always.mono (fun ts ending hending => ?_) hafter
    obtain ⟨honward, hsent⟩ := hending
    refine ⟨h.discard.trans honward, ?_⟩
    have hsource : c'.discard.source = c.source := h.discard.source_eq
    rw [hsource] at hsent
    exact htoken.append hsent h.discard.mark_le honward.mark_le

/-- Emitting the piece is safe. -/
theorem safe_emit (h : c.Onward c') : Safe c (s.emit c' kind) :=
  safe_emitThen h ⟨.refl h.discard.sound, .nil⟩

/-- A failure leaves the mark where it is; its span need not be that of the piece. -/
theorem safe_fail (h : c.Onward c') {message : String} {span : Span}
    (hle : span.start ≤ span.stop) (hstart : Boundary c.source span.start)
    (hstop : Boundary c.source span.stop) : Safe c (s.fail c' message span) := by
  intro taken
  refine ⟨h, Sent.single ⟨hle, hstart, hstop, fun hkind => ?_⟩ fun hkind => ?_⟩
  · cases hkind
  · cases hkind

/-- So is a failure at the piece. -/
theorem safe_fail_span (h : c.Onward c') {message : String} :
    Safe c (s.fail c' message c'.span) := by
  -- the piece lies between boundaries of its own cursor's source, which is the same
  refine safe_fail h h.sound.mark_le_offset ?_ ?_
  · rw [← h.source_eq]
    exact h.sound.boundary_mark
  · rw [← h.source_eq]
    exact h.sound.boundary_offset

/-- So is an end marker at the position. -/
theorem safe_emitEnd (h : c.Onward c') : Safe c (s.emitEnd c') := by
  have hoffset : Boundary c.source c'.offset := by
    rw [← h.source_eq]
    exact h.sound.boundary_offset
  intro taken
  refine ⟨h, Sent.single ⟨Nat.le_refl _, hoffset, hoffset, fun hkind => ?_⟩ fun hkind => ?_⟩
  · cases hkind
  · cases hkind

/-- Every delimited piece has something that closes it. -/
theorem Encloses.closer_ne_nil {state : ScanState} {form : Delimited} (h : Encloses state form) :
    form.closer ≠ [] := by
  cases h <;> exact List.cons_ne_nil _ _

/-- **Every state keeps the scan sound**, wherever it is entered. -/
theorem safe_step (h : s.cursor.Sound) (state : ScanState) : Safe s.cursor (s.step state) := by
  have here : s.cursor.Onward s.cursor := .refl h
  have hsign : Solid Cursor.isSign := Cursor.solid_isSign
  have hdoes := does_step s state
  generalize s.step state = step at hdoes ⊢
  cases hdoes with
  | finish => exact ⟨here.settle, .nil⟩
  | unclosed => exact safe_fail here.settle (Nat.le_refl _) h.boundary_offset h.boundary_offset
  | beginRun => exact safe_goto here.settle _
  | beginQuoted hhead => exact safe_goto (here.past hhead).discard _
  | beginChar hhead => exact safe_goto (here.past hhead) _
  | beginComment hhead hmark => exact safe_goto ((here.past hhead).past hmark) _
  | slash hhead | literal hhead => exact safe_emit (here.past hhead)
  -- counting brackets moves nothing
  | opening hhead | closing hhead => exact safe_emit (here.past hhead)
  | stray hhead | unknown hhead => exact safe_fail_span (here.past hhead)
  | report => exact safe_emit (here.skip _)
  | pass => exact safe_goto (here.skip _).discard _
  | closeKept encloses hseek =>
    have hfound := here.seek encloses.closer_ne_nil hseek
    exact safe_emit (hfound.trans (h.jump_closer encloses.closer_ne_nil hseek).1)
  | closeDropped encloses hseek =>
    have hfound := here.seek encloses.closer_ne_nil hseek
    have hjump := (h.jump_closer encloses.closer_ne_nil hseek).2
    exact safe_emitThen hfound (safe_goto hjump.discard _)
  | cut encloses hseek =>
    have hfound := here.seek encloses.closer_ne_nil hseek
    exact safe_emitThen hfound (safe_emitEnd (.refl hfound.discard.sound))
  | cutEmpty encloses hseek => exact safe_emitEnd (here.seek encloses.closer_ne_nil hseek)
  | char hread => exact safe_emit (here.readChar hread)
  | badChar hread => exact safe_fail_span (here.readChar hread)
  | sign haccept => exact safe_emit (here.accept hsign haccept)
  | number haccept =>
    exact safe_emit ((here.accept hsign haccept).op Cursor.local_readMagnitude)
  | badNumber haccept hhead =>
    exact safe_fail_span (((here.accept hsign haccept).op Cursor.local_readMagnitude).past hhead)
  | word => exact safe_emit (here.skip _)
  | badWord hhead =>
    have hskip := here.skip continuesWord
    refine safe_fail hskip (Nat.le_add_right _ _) ?_ ?_
    · rw [← hskip.source_eq]
      exact hskip.sound.boundary_offset
    · rw [← hskip.source_eq]
      exact hskip.sound.boundary_head hhead

/-- So does every chain of states. -/
theorem safe_drive (bound : Nat) (h : s.cursor.Sound) (state : Option ScanState) :
    (drive bound s state).Always fun ts s' =>
      s.cursor.Onward s'.cursor ∧ Sent s.cursor.source s.cursor.mark s'.cursor.mark ts := by
  induction bound generalizing s state with
  | zero => exact ⟨.refl h, .nil⟩
  | succ bound ih =>
    cases state with
    | none => exact ⟨.refl h, .nil⟩
    | some state =>
      -- the step first, and the rest from where it has got to
      refine (safe_step h state).bind ?_
      rintro ts ⟨next, s'⟩ ⟨honward, hsent⟩
      refine Emitter.Always.mono (fun us s'' hs'' => ?_) (ih honward.sound next)
      obtain ⟨honward', hsent'⟩ := hs''
      rw [honward.source_eq] at hsent'
      exact ⟨honward.trans honward', hsent.append hsent' honward.mark_le honward'.mark_le⟩

end Scanner

/-- **The tokens of a source stand in it.** -/
theorem Token.sits_of_mem_lexWith (options : ScanOptions) (source : String) :
    ∀ t ∈ lexWith options source, t.Sits source := by
  have hsound : (Scanner.ofSource source options).cursor.Sound := Cursor.sound_ofSource source
  exact (Scanner.safe_drive _ hsound (some .neutral)).tokens.2.sits

end DeclFront
