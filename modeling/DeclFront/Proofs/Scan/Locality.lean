import DeclFront.Proofs.Scan.Piece

/-!
# What reading depends on

Every reading operation of a scan is decided by the runes ahead, and by no more of them than it
needs: where it stops before the last of them, nothing that stands further on can matter. Numbers
and words also stop at white space, so they end there even if they used up all runes before it.

* `Cursor.Reads` says what an operation takes from the runes ahead, wherever these stand and
  whatever comes after them; `Cursor.Local` says that there is an answer for all runes. Operations
  that look for solid runes are local, and sequences and branches of local operations are again
  (`Local.comp`, `Local.ite`), which is how numbers are covered (`Cursor.local_readMagnitude`).
* `Cursor.finds_or_lacks`: a delimited piece is closed at a place that later runes cannot change, or
  there is no closer ahead at all.
* `Cursor.readsChar`: the same for character constants, which a line feed ends as well.
-/

namespace DeclFront

/-- Runes that continue nothing: none at all, or white space first. -/
def Inert (more : List Char) : Prop :=
  ∀ q, more.head? = some q → isWhite q = true

/-- No rune of white space passes the test. -/
def Solid (p : Char → Bool) : Prop :=
  ∀ q, isWhite q = true → p q = false

/-- Where there are no runes, nothing is continued. -/
theorem inert_nil : Inert [] := by
  intro q hq
  cases hq

/-- A rune of white space continues nothing. -/
theorem inert_cons {r : Char} {more : List Char} (hr : isWhite r = true) : Inert (r :: more) := by
  intro q hq
  obtain rfl : r = q := Option.some.inj hq
  exact hr

/-- There are four runes of white space to be tested. -/
theorem solid_of_four {p : Char → Bool}
    (h : p ' ' = false ∧ p '\t' = false ∧ p '\r' = false ∧ p '\n' = false) : Solid p := by
  intro q hq
  obtain rfl | rfl | rfl | rfl := isWhite_cases hq
  · exact h.1
  · exact h.2.1
  · exact h.2.2.1
  · exact h.2.2.2

/-- What the next rune is taken for does not depend on inert runes behind it, if white space is
taken for the end. -/
theorem key_head?_append {β : Type} (key : Option Char → β)
    (hkey : ∀ q, isWhite q = true → key (some q) = key none) {ahead more : List Char}
    (h : ahead ≠ [] ∨ Inert more) : key (ahead ++ more).head? = key ahead.head? := by
  cases ahead with
  | cons r ahead => rfl
  | nil =>
    -- then only inert runes come, and white space is taken for the end
    have hinert : Inert more := h.resolve_left fun hne => hne rfl
    rw [List.nil_append]
    cases hq : more.head? with
    | none => rfl
    | some q => exact hkey q (hinert q hq)

/-- A solid test of the next rune does not depend on inert runes behind it. -/
theorem Solid.any_head?_append {p : Char → Bool} (hp : Solid p) {ahead more : List Char}
    (h : ahead ≠ [] ∨ Inert more) : (ahead ++ more).head?.any p = ahead.head?.any p :=
  key_head?_append (·.any p) hp h

/-- A run that ends before the last rune, or at white space, ends there whatever follows. -/
theorem Solid.takeWhile_append {p : Char → Bool} (hp : Solid p) {ahead more : List Char}
    (h : ahead.dropWhile p ≠ [] ∨ Inert more) :
    (ahead ++ more).takeWhile p = ahead.takeWhile p ∧
      (ahead ++ more).dropWhile p = ahead.dropWhile p ++ more := by
  induction ahead with
  | nil =>
    have hinert : Inert more := h.resolve_left fun hne => hne rfl
    refine takeWhile_eq_nil_of_head fun q hq => ?_
    rw [hp q (hinert q hq)]
    exact Bool.false_ne_true
  | cons r ahead ih =>
    rw [List.cons_append]
    by_cases hr : p r = true
    · -- the run goes on, and ends where that of the runes behind does
      rw [List.dropWhile_cons_of_pos hr] at h ⊢
      obtain ⟨htake, hdrop⟩ := ih h
      rw [List.takeWhile_cons_of_pos hr, List.takeWhile_cons_of_pos hr,
        List.dropWhile_cons_of_pos hr, htake]
      exact ⟨rfl, hdrop⟩
    · -- it ends here, with this rune left
      rw [List.takeWhile_cons_of_neg hr, List.takeWhile_cons_of_neg hr,
        List.dropWhile_cons_of_neg hr, List.dropWhile_cons_of_neg hr]
      exact ⟨rfl, rfl⟩

namespace Cursor

/-! ### Local operations -/

/-- From the runes `ahead` the operation takes `taken` and leaves `rest`. It does so wherever the
runes stand, and whatever comes after them, if some are left or what comes after is inert. -/
structure Reads (op : Cursor → Cursor) (ahead taken rest : List Char) : Prop where
  split : ahead = taken ++ rest
  holds : ∀ {c : Cursor} {before piece more : List Char}, c.Holds before piece (ahead ++ more) →
    rest ≠ [] ∨ Inert more → (op c).Holds before (piece ++ taken) (rest ++ more)

/-- The runes ahead decide what the operation takes from them. -/
def Local (op : Cursor → Cursor) : Prop :=
  ∀ ahead, ∃ taken rest, Reads op ahead taken rest

/-- Where runes are left after an operation, there were some before it. -/
theorem Reads.ne_nil_or_inert {op : Cursor → Cursor} {ahead taken rest more : List Char}
    (h : Reads op ahead taken rest) (hmore : rest ≠ [] ∨ Inert more) :
    ahead ≠ [] ∨ Inert more := by
  refine hmore.imp_left fun hrest hahead => hrest ?_
  have hsplit := h.split
  rw [hahead] at hsplit
  exact (List.append_eq_nil_iff.1 hsplit.symm).2

/-- A local operation moves forward over runes that are ahead. -/
theorem Local.exists_holds {op : Cursor → Cursor} (h : Local op) {c : Cursor}
    {before piece ahead : List Char} (hc : c.Holds before piece ahead) :
    ∃ taken rest, ahead = taken ++ rest ∧ (op c).Holds before (piece ++ taken) rest := by
  obtain ⟨taken, rest, hreads⟩ := h ahead
  rw [← List.append_nil ahead] at hc
  have hop := hreads.holds hc (.inr inert_nil)
  rw [List.append_nil] at hop
  exact ⟨taken, rest, hreads.split, hop⟩

/-- One local operation after another. -/
theorem Local.comp {f g : Cursor → Cursor} (hf : Local f) (hg : Local g) :
    Local fun c => g (f c) := by
  intro ahead
  obtain ⟨first, middle, hfirst⟩ := hf ahead
  obtain ⟨second, rest, hsecond⟩ := hg middle
  refine ⟨first ++ second, rest, ?_, fun hc hmore => ?_⟩
  · rw [hfirst.split, hsecond.split, List.append_assoc]
  · -- runes that the second leaves were left by the first as well
    have hmiddle := hfirst.holds hc (hsecond.ne_nil_or_inert hmore)
    have hrest := hsecond.holds hmiddle hmore
    rwa [List.append_assoc] at hrest

/-- A choice between local operations by what the next rune is taken for. -/
theorem Local.choose {β : Type} (key : Option Char → β) (op : β → Cursor → Cursor)
    (hkey : ∀ q, isWhite q = true → key (some q) = key none) (hop : ∀ b, Local (op b)) :
    Local fun c => op (key c.head?) c := by
  intro ahead
  obtain ⟨taken, rest, hreads⟩ := hop (key ahead.head?) ahead
  refine ⟨taken, rest, hreads.split, fun hc hmore => ?_⟩
  rw [hc.head?_eq, key_head?_append key hkey (hreads.ne_nil_or_inert hmore)]
  exact hreads.holds hc hmore

/-- A choice between two local operations, by a solid test. -/
theorem Local.ite {f g : Cursor → Cursor} {p : Char → Bool} (hp : Solid p) (hf : Local f)
    (hg : Local g) : Local fun c => if c.head?.any p then f c else g c := by
  refine Local.choose (·.any p) (fun b c => if b then f c else g c) hp fun b => ?_
  cases b with
  | true => exact hf
  | false => exact hg

/-- Reading nothing is local. -/
theorem local_settle : Local settle := by
  intro ahead
  refine ⟨[], ahead, rfl, fun hc _ => ?_⟩
  rw [List.append_nil]
  exact hc.settle

/-! ### Runs and single runes -/

/-- Reading a run is local. -/
theorem local_skip {p : Char → Bool} (hp : Solid p) : Local fun c => c.skip p := by
  intro ahead
  refine ⟨ahead.takeWhile p, ahead.dropWhile p, List.takeWhile_append_dropWhile.symm,
    fun hc hmore => ?_⟩
  obtain ⟨htake, hdrop⟩ := hp.takeWhile_append hmore
  have hskip := hc.skip p
  rwa [htake, hdrop] at hskip

/-- A rune is accepted if it passes the test. -/
theorem accept_eq (c : Cursor) (p : Char → Bool) : c.accept p = (c.head?.any p, c.skipOne p) := by
  unfold skipOne accept
  cases c.head? with
  | none => rfl
  | some r =>
    cases hr : p r with
    | true => simp [hr]
    | false => simp [hr]

/-- A rune that passes the test is read. -/
theorem skipOne_of_head {c : Cursor} {p : Char → Bool} {r : Char} (h : c.head? = some r)
    (hr : p r = true) : c.skipOne p = c.past r := by
  rw [skipOne, accept_of_head h hr]

/-- Where the next rune does not pass, nothing is read. -/
theorem skipOne_of_not_any {c : Cursor} {p : Char → Bool} (h : c.head?.any p = false) :
    c.skipOne p = c.settle := by
  unfold skipOne accept
  cases hhead : c.head? with
  | none => rfl
  | some r =>
    rw [hhead] at h
    have hr : p r = false := h
    simp [hr]

/-- Reading one rune, or none, is local. -/
theorem local_skipOne {p : Char → Bool} (hp : Solid p) : Local fun c => c.skipOne p := by
  intro ahead
  by_cases hhead : ahead.head?.any p = true
  · obtain ⟨r, rest, rfl, hr⟩ : ∃ r rest, ahead = r :: rest ∧ p r = true := by
      cases ahead with
      | nil => cases hhead
      | cons r rest => exact ⟨r, rest, rfl, hhead⟩
    refine ⟨[r], rest, rfl, fun hc _ => ?_⟩
    rw [skipOne_of_head hc.head?_eq hr]
    exact hc.past
  · -- nor does it pass with inert runes behind
    refine ⟨[], ahead, rfl, fun {c _ _ more} hc hmore => ?_⟩
    have hnot : c.head?.any p = false := by
      rw [hc.head?_eq, hp.any_head?_append hmore]
      exact Bool.not_eq_true _ ▸ hhead
    rw [skipOne_of_not_any hnot, List.append_nil]
    exact hc.settle

/-! ### Numbers -/

/-- White space is no digit. -/
theorem solid_isDigit (radix : Radix) : Solid radix.isDigit := by
  refine solid_of_four ?_
  cases radix <;> decide

/-- White space is no sign. -/
theorem solid_isSign : Solid isSign := solid_of_four (by decide)

/-- A fraction is read by what the next rune is. -/
theorem readFraction_eq (c : Cursor) (radix : Radix) :
    c.readFraction radix =
      if c.head?.any (· == '.') then (c.skipOne (· == '.')).skip radix.isDigit
      else c.skipOne (· == '.') := by
  unfold readFraction
  rw [accept_eq]
  cases c.head?.any (· == '.') <;> rfl

/-- Fractions are local. -/
theorem local_readFraction (radix : Radix) : Local fun c => c.readFraction radix := by
  have hpoint : Solid (· == '.') := solid_of_four (by decide)
  have hlocal := Local.ite hpoint
    ((local_skipOne hpoint).comp (local_skip (solid_isDigit radix))) (local_skipOne hpoint)
  simpa only [← readFraction_eq] using hlocal

/-- An exponent is read by what the next rune is. -/
theorem readExponent_eq (c : Cursor) :
    c.readExponent =
      if c.head?.any fun r => r == 'e' || r == 'E' then
        ((c.skipOne fun r => r == 'e' || r == 'E').skipOne isSign).skip isDecimal
      else c.skipOne fun r => r == 'e' || r == 'E' := by
  unfold readExponent
  rw [accept_eq]
  cases c.head?.any fun r => r == 'e' || r == 'E' <;> rfl

/-- Exponents are local. -/
theorem local_readExponent : Local fun c => c.readExponent := by
  have hletter : Solid fun r => r == 'e' || r == 'E' := solid_of_four (by decide)
  have hdigits : Local fun c => c.skip isDecimal := local_skip (solid_isDigit .decimal)
  have hlocal := Local.ite hletter
    (((local_skipOne hletter).comp (local_skipOne solid_isSign)).comp hdigits)
    (local_skipOne hletter)
  simpa only [← readExponent_eq] using hlocal

/-- Read what follows the marker of a notation. -/
def readDigits (radix : Radix) (c : Cursor) : Cursor :=
  (((c.skip radix.isDigit).readFraction radix).readExponent).skipOne (· == 'i')

/-- Read what follows a leading zero. -/
def readMarked (c : Cursor) : Cursor :=
  match c.head?.bind Radix.ofMarker? with
  | some radix => (c.skipOne fun r => (Radix.ofMarker? r).isSome).readDigits radix
  | none => c.settle.readDigits .decimal

/-- A number is read by whether a zero leads it. -/
theorem readMagnitude_eq (c : Cursor) :
    c.readMagnitude =
      if c.head?.any (· == '0') then (c.skipOne (· == '0')).readMarked
      else (c.skipOne (· == '0')).readDigits .decimal := by
  unfold readMagnitude readRadix
  rw [accept_eq]
  cases c.head?.any (· == '0') with
  | false => rfl
  | true =>
    simp only [if_true]
    unfold readMarked
    -- a marker, another rune or none at all
    cases hhead : (c.skipOne (· == '0')).head? with
    | none => rfl
    | some r =>
      cases hmarker : Radix.ofMarker? r with
      | none => simp only [Option.bind_some, hmarker]; rfl
      | some radix =>
        -- the marker that was found is the rune that is skipped
        have hskip : ((c.skipOne (· == '0')).skipOne fun r => (Radix.ofMarker? r).isSome) =
            (c.skipOne (· == '0')).past r := by
          refine skipOne_of_head hhead ?_
          rw [hmarker]
          rfl
        simp only [Option.bind_some, hmarker, hskip]
        rfl

/-- What follows a marker is local. -/
theorem local_readDigits (radix : Radix) : Local (readDigits radix) := by
  have himaginary : Solid (· == 'i') := solid_of_four (by decide)
  -- the parts are read one after another
  have hfraction := (local_skip (solid_isDigit radix)).comp (local_readFraction radix)
  have hexponent := hfraction.comp local_readExponent
  have hall := hexponent.comp (local_skipOne himaginary)
  unfold readDigits
  exact hall

/-- What follows a leading zero is local. -/
theorem local_readMarked : Local readMarked := by
  have hmarker : Solid fun r => (Radix.ofMarker? r).isSome := solid_of_four (by decide)
  -- white space announces no notation, just as the end of the runes does
  have hkey : ∀ q, isWhite q = true →
      (some q).bind Radix.ofMarker? = Option.bind none Radix.ofMarker? := by
    intro q hq
    have hnone := hmarker q hq
    rwa [Option.isSome_eq_false_iff, Option.isNone_iff_eq_none] at hnone
  unfold readMarked
  refine Local.choose (·.bind Radix.ofMarker?) (fun radix c => match radix with
    | some radix => (c.skipOne fun r => (Radix.ofMarker? r).isSome).readDigits radix
    | none => c.settle.readDigits .decimal) hkey fun radix => ?_
  cases radix with
  | some radix =>
    dsimp only
    exact (local_skipOne hmarker).comp (local_readDigits radix)
  | none =>
    dsimp only
    exact local_settle.comp (local_readDigits .decimal)

/-- **Numbers are local.** -/
theorem local_readMagnitude : Local readMagnitude := by
  have hzero : Solid (· == '0') := solid_of_four (by decide)
  have hlocal := Local.ite hzero ((local_skipOne hzero).comp local_readMarked)
    ((local_skipOne hzero).comp (local_readDigits .decimal))
  simpa only [← readMagnitude_eq] using hlocal

/-! ### Delimited pieces -/

variable {c : Cursor} {before piece : List Char}

/-- The closing delimiter of `form` is found after the runes `body`, wherever the runes `ahead`
stand and whatever comes after them. -/
structure Finds (form : Delimited) (ahead body rest : List Char) : Prop where
  split : ahead = body ++ (form.closer ++ rest)
  holds : ∀ {c : Cursor} {before piece more : List Char}, c.Holds before piece (ahead ++ more) →
    ∃ c', c.seek form = (true, c') ∧ c'.Holds before (piece ++ body) (form.closer ++ (rest ++ more))

/-- The closing delimiter of `form` does not come, and all runes ahead are read. -/
def Lacks (form : Delimited) (ahead : List Char) : Prop :=
  ∀ {c : Cursor} {before piece : List Char}, c.Holds before piece ahead →
    ∃ c', c.seek form = (false, c') ∧ c'.Holds before (piece ++ ahead) []

/-- The runes `runes` are passed over in search of the closing delimiter of `form`, unless it stands
in front of them. -/
def Passes (form : Delimited) (runes : List Char) : Prop :=
  ∀ {c : Cursor} {before piece tail : List Char}, c.Holds before piece (runes ++ tail) →
    ¬ form.closer <+: runes ++ tail →
    ∃ c' : Cursor, c.seek form = c'.seek form ∧ c'.Holds before (piece ++ runes) tail

/-- At a rune where the closer does not stand, the search goes on past it. -/
theorem seek_of_head {form : Delimited} {r : Char} (h : ¬ c.lookingAt form.closer = true)
    (hhead : c.head? = some r) :
    c.seek form =
      if form.escapes && r == '\\' then (c.past r).read.2.seek form else (c.past r).seek form := by
  rw [seek, if_neg h]
  split
  · next hnone => rw [hhead] at hnone; cases hnone
  · next r' hr' =>
    obtain rfl : r = r' := Option.some.inj (hhead.symm.trans hr')
    rfl

/-- A rune that hides nothing is passed over. -/
theorem passes_of_plain {form : Delimited} {r : Char} (hr : (form.escapes && r == '\\') = false) :
    Passes form [r] := by
  intro c before piece tail hc hnot
  have hlook : ¬ c.lookingAt form.closer = true := fun hlook => hnot ((hc.lookingAt_iff _).1 hlook)
  refine ⟨c.past r, ?_, hc.past⟩
  rw [seek_of_head hlook hc.head?_eq, hr]
  exact if_neg Bool.false_ne_true

/-- A backslash is passed over together with the rune that it hides. -/
theorem passes_of_escape {form : Delimited} {r q : Char}
    (hr : (form.escapes && r == '\\') = true) : Passes form [r, q] := by
  intro c before piece tail hc hnot
  have hlook : ¬ c.lookingAt form.closer = true := fun hlook => hnot ((hc.lookingAt_iff _).1 hlook)
  have hpast : (c.past r).Holds before (piece ++ [r]) (q :: tail) := hc.past
  have hread : (c.past r).read.2 = (c.past r).past q := by
    rw [read, hpast.head?_eq]
    rfl
  refine ⟨(c.past r).past q, ?_, ?_⟩
  · rw [seek_of_head hlook hc.head?_eq, if_pos hr, hread]
  · have htail := hpast.past
    rwa [List.append_assoc] at htail

/-- A closer that is found behind runes that are passed over is found behind them too. -/
theorem Finds.prepend {form : Delimited} {runes ahead body rest : List Char}
    (hpasses : Passes form runes) (hnot : ¬ form.closer <+: runes ++ ahead)
    (h : Finds form ahead body rest) : Finds form (runes ++ ahead) (runes ++ body) rest where
  split := by rw [h.split, List.append_assoc]
  holds := by
    intro c before piece more hc
    rw [List.append_assoc] at hc
    have hnot' : ¬ form.closer <+: runes ++ (ahead ++ more) := by
      intro hfirst
      -- the closer stands further on among `ahead`, so there is room for it without `more`
      refine hnot (List.prefix_of_prefix_length_le hfirst ⟨more, ?_⟩ ?_)
      · rw [List.append_assoc]
      · rw [h.split]
        simp only [List.length_append]
        omega
    obtain ⟨c₁, hseek, hc₁⟩ := hpasses hc hnot'
    obtain ⟨c', hseek', hc'⟩ := h.holds hc₁
    rw [List.append_assoc] at hc'
    exact ⟨c', hseek.trans hseek', hc'⟩

/-- A closer that does not come behind runes that are passed over does not come at all. -/
theorem Lacks.prepend {form : Delimited} {runes ahead : List Char} (hpasses : Passes form runes)
    (hnot : ¬ form.closer <+: runes ++ ahead) (h : Lacks form ahead) :
    Lacks form (runes ++ ahead) := by
  intro c before piece hc
  obtain ⟨c₁, hseek, hc₁⟩ := hpasses hc hnot
  obtain ⟨c', hseek', hc'⟩ := h hc₁
  rw [List.append_assoc] at hc'
  exact ⟨c', hseek.trans hseek', hc'⟩

/-- **A delimited piece** is closed at a place that later runes cannot change, or not at all. -/
theorem finds_or_lacks (form : Delimited) (hcloser : form.closer ≠ []) (ahead : List Char) :
    (∃ body rest, Finds form ahead body rest) ∨ Lacks form ahead := by
  -- on the number of runes ahead, for a backslash takes two of them at once
  obtain ⟨n, hn⟩ : ∃ n, n = ahead.length := ⟨_, rfl⟩
  induction n using Nat.strongRecOn generalizing ahead with
  | _ n ih =>
    by_cases hfirst : form.closer <+: ahead
    · obtain ⟨rest, rfl⟩ := hfirst
      refine .inl ⟨[], rest, rfl, fun {c _ _ more} hc => ⟨c, ?_, ?_⟩⟩
      · refine Holds.seek_here ((hc.lookingAt_iff _).2 ?_)
        rw [List.append_assoc]
        exact List.prefix_append _ _
      · rwa [List.append_nil, ← List.append_assoc]
    · -- what is passed over in front is put before what is found behind it
      have hstep : ∀ runes tail : List Char, ahead = runes ++ tail → runes ≠ [] →
          Passes form runes → (∃ body rest, Finds form ahead body rest) ∨ Lacks form ahead := by
        intro runes tail hsplit hne hpasses
        subst hsplit
        have hlength := List.length_pos_iff.2 hne
        rw [List.length_append] at hn
        obtain ⟨body, rest, hfinds⟩ | hlacks := ih tail.length (by omega) tail rfl
        · exact .inl ⟨runes ++ body, rest, hfinds.prepend hpasses hfirst⟩
        · exact .inr (hlacks.prepend hpasses hfirst)
      cases ahead with
      | nil =>
        refine .inr fun {c _ _} hc => ⟨c.settle, ?_, ?_⟩
        · exact Holds.seek_end (fun hlook => hfirst ((hc.lookingAt_iff _).1 hlook)) hc.head?_eq
        · rw [List.append_nil]
          exact hc.settle
      | cons r ahead =>
        cases hr : form.escapes && r == '\\' with
        | false => exact hstep [r] ahead rfl (List.cons_ne_nil _ _) (passes_of_plain hr)
        | true =>
          cases ahead with
          | cons q ahead =>
            exact hstep [r, q] ahead rfl (List.cons_ne_nil _ _) (passes_of_escape hr)
          | nil =>
            -- a backslash at the very end hides nothing
            refine .inr fun {c before piece} hc => ?_
            have hlook : ¬ c.lookingAt form.closer = true :=
              fun hlook => hfirst ((hc.lookingAt_iff _).1 hlook)
            have hpast : (c.past r).Holds before (piece ++ [r]) [] := hc.past
            have hread : (c.past r).read.2 = (c.past r).settle := by
              rw [read, hpast.head?_eq]
              rfl
            have hend : ¬ (c.past r).settle.lookingAt form.closer = true := by
              intro hlook
              exact hcloser (List.prefix_nil.1 ((hpast.settle.lookingAt_iff _).1 hlook))
            refine ⟨(c.past r).settle.settle, ?_, hpast.settle.settle⟩
            rw [seek_of_head hlook hc.head?_eq, if_pos hr, hread]
            exact Holds.seek_end hend hpast.settle.head?_eq

/-- A closing delimiter that was found stands after the runes that were read. -/
theorem Holds.of_seek_found {c' : Cursor} {ahead : List Char} (h : c.Holds before piece ahead)
    {form : Delimited} (hcloser : form.closer ≠ []) (hseek : c.seek form = (true, c')) :
    ∃ body rest, ahead = body ++ (form.closer ++ rest) ∧
      c'.Holds before (piece ++ body) (form.closer ++ rest) := by
  obtain ⟨body, rest, hfinds⟩ | hlacks := finds_or_lacks form hcloser ahead
  · rw [← List.append_nil ahead] at h
    obtain ⟨c₁, hseek₁, hc₁⟩ := hfinds.holds h
    rw [hseek₁, Prod.mk.injEq] at hseek
    rw [List.append_nil, hseek.2] at hc₁
    exact ⟨body, rest, hfinds.split, hc₁⟩
  · -- a closer that does not come cannot have been found
    obtain ⟨c₁, hseek₁, -⟩ := hlacks h
    rw [hseek₁, Prod.mk.injEq] at hseek
    cases hseek.1

/-- Where the closing delimiter was not found, everything was read. -/
theorem Holds.of_seek_lost {c' : Cursor} {ahead : List Char} (h : c.Holds before piece ahead)
    {form : Delimited} (hcloser : form.closer ≠ []) (hseek : c.seek form = (false, c')) :
    c'.Holds before (piece ++ ahead) [] := by
  obtain ⟨body, rest, hfinds⟩ | hlacks := finds_or_lacks form hcloser ahead
  · rw [← List.append_nil ahead] at h
    -- a closer that comes cannot have been missed
    obtain ⟨c₁, hseek₁, -⟩ := hfinds.holds h
    rw [hseek₁, Prod.mk.injEq] at hseek
    cases hseek.1
  · obtain ⟨c₁, hseek₁, hc₁⟩ := hlacks h
    rw [hseek₁, Prod.mk.injEq] at hseek
    rwa [hseek.2] at hc₁

/-! ### Character constants -/

/-- What is read of a character constant after its opening quote. -/
inductive ReadsChar (ahead : List Char) : Prop
  /-- Its closing quote comes, and later runes cannot change that. -/
  | closed (taken rest : List Char) (split : ahead = taken ++ rest)
      (holds : ∀ {c : Cursor} {before piece more : List Char},
        c.Holds before piece (ahead ++ more) →
        ∃ c', c.readChar = (true, c') ∧ c'.Holds before (piece ++ taken) (rest ++ more))
  /-- A line feed comes first, and later runes cannot change that. -/
  | broken (taken rest : List Char) (split : ahead = taken ++ rest)
      (last : taken.getLast? = some '\n')
      (holds : ∀ {c : Cursor} {before piece more : List Char},
        c.Holds before piece (ahead ++ more) →
        ∃ c', c.readChar = (false, c') ∧ c'.Holds before (piece ++ taken) (rest ++ more))
  /-- The runes end first. -/
  | cut (noLine : '\n' ∉ ahead)
      (holds : ∀ {c : Cursor} {before piece : List Char}, c.Holds before piece ahead →
        ∃ c', c.readChar = (false, c') ∧ c'.Holds before (piece ++ ahead) [])

/-- A character constant breaks off where nothing comes. -/
theorem readChar_of_none (h : c.head? = none) : c.readChar = (false, c.settle) := by
  rw [readChar]
  split
  · rfl
  · next r hr => rw [h] at hr; cases hr

/-- A character constant at a rune that hides nothing. -/
theorem readChar_of_head {r : Char} (h : c.head? = some r) (hr : r ≠ '\\') :
    c.readChar =
      if r == '\n' then (false, c.past r)
      else if r == '\'' then (true, c.past r) else (c.past r).readChar := by
  rw [readChar]
  split
  · next hnone => rw [h] at hnone; cases hnone
  · next r' hr' =>
    obtain rfl : r = r' := Option.some.inj (h.symm.trans hr')
    exact if_neg fun hslash => hr (beq_iff_eq.1 hslash)

/-- A character constant breaks off at a backslash that hides nothing. -/
theorem readChar_of_escape_none (h : c.head? = some '\\') (h' : (c.past '\\').head? = none) :
    c.readChar = (false, (c.past '\\').settle) := by
  rw [readChar]
  split
  · next hnone => rw [h] at hnone; cases hnone
  · next r hr =>
    obtain rfl : '\\' = r := Option.some.inj (h.symm.trans hr)
    refine (if_pos rfl).trans ?_
    split
    · rfl
    · next q hq => rw [h'] at hq; cases hq

/-- A backslash hides any rune but a line feed. -/
theorem readChar_of_escape {q : Char} (h : c.head? = some '\\')
    (h' : (c.past '\\').head? = some q) :
    c.readChar =
      if q == '\n' then (false, (c.past '\\').past q) else ((c.past '\\').past q).readChar := by
  rw [readChar]
  split
  · next hnone => rw [h] at hnone; cases hnone
  · next r hr =>
    obtain rfl : '\\' = r := Option.some.inj (h.symm.trans hr)
    refine (if_pos rfl).trans ?_
    split
    · next hnone => rw [h'] at hnone; cases hnone
    · next q' hq' =>
      obtain rfl : q = q' := Option.some.inj (h'.symm.trans hq')
      rfl

/-- Runes that are passed over go in front of what is read behind them. -/
theorem ReadsChar.prepend (runes : List Char) {ahead : List Char} (hline : '\n' ∉ runes)
    (hpasses : ∀ {c : Cursor} {before piece tail : List Char},
      c.Holds before piece (runes ++ tail) →
      ∃ c' : Cursor, c.readChar = c'.readChar ∧ c'.Holds before (piece ++ runes) tail)
    (h : ReadsChar ahead) : ReadsChar (runes ++ ahead) := by
  -- the same with more runes behind, as the first two cases have it
  have hfront : ∀ {c : Cursor} {before piece more : List Char},
      c.Holds before piece (runes ++ ahead ++ more) →
      ∃ c' : Cursor, c.readChar = c'.readChar ∧
        c'.Holds before (piece ++ runes) (ahead ++ more) := by
    intro c before piece more hc
    rw [List.append_assoc] at hc
    exact hpasses hc
  cases h with
  | closed taken rest split holds =>
    refine .closed (runes ++ taken) rest ?_ fun hc => ?_
    · rw [split, List.append_assoc]
    · obtain ⟨c₁, hread, hc₁⟩ := hfront hc
      obtain ⟨c', hread', hc'⟩ := holds hc₁
      rw [List.append_assoc] at hc'
      exact ⟨c', hread.trans hread', hc'⟩
  | broken taken rest split last holds =>
    refine .broken (runes ++ taken) rest ?_ ?_ fun hc => ?_
    · rw [split, List.append_assoc]
    · rw [List.getLast?_append, last]
      rfl
    · obtain ⟨c₁, hread, hc₁⟩ := hfront hc
      obtain ⟨c', hread', hc'⟩ := holds hc₁
      rw [List.append_assoc] at hc'
      exact ⟨c', hread.trans hread', hc'⟩
  | cut noLine holds =>
    refine .cut ?_ fun hc => ?_
    · rw [List.mem_append, not_or]
      exact ⟨hline, noLine⟩
    · -- here nothing comes behind, so the operation is asked directly
      obtain ⟨c₁, hread, hc₁⟩ := hpasses hc
      obtain ⟨c', hread', hc'⟩ := holds hc₁
      rw [List.append_assoc] at hc'
      exact ⟨c', hread.trans hread', hc'⟩

/-- **A character constant** is decided by the runes up to its closing quote or a line feed. -/
theorem readsChar (ahead : List Char) : ReadsChar ahead := by
  -- on the number of runes ahead, for a backslash takes two of them at once
  obtain ⟨n, hn⟩ : ∃ n, n = ahead.length := ⟨_, rfl⟩
  induction n using Nat.strongRecOn generalizing ahead with
  | _ n ih =>
    cases ahead with
    | nil =>
      -- no runes, so no closing quote
      refine .cut List.not_mem_nil fun {c _ _} hc => ⟨c.settle, readChar_of_none hc.head?_eq, ?_⟩
      rw [List.append_nil]
      exact hc.settle
    | cons r ahead =>
      rw [List.length_cons] at hn
      by_cases hslash : r = '\\'
      · subst hslash
        cases ahead with
        | nil =>
          -- a backslash at the very end hides nothing
          refine .cut (by decide) fun {c _ _} hc => ⟨(c.past '\\').settle, ?_, hc.past.settle⟩
          exact readChar_of_escape_none hc.head?_eq hc.past.head?_eq
        | cons q ahead =>
          rw [List.length_cons] at hn
          by_cases hline : q = '\n'
          · -- a hidden line feed breaks the constant all the same
            subst hline
            refine .broken ['\\', '\n'] ahead rfl rfl fun {c _ _ _} hc => ?_
            have hpast := hc.past.past
            rw [List.append_assoc] at hpast
            exact ⟨_, readChar_of_escape hc.head?_eq hc.past.head?_eq, hpast⟩
          · -- any other rune is hidden
            refine ReadsChar.prepend ['\\', q] ?_ (fun {c _ _ _} hc => ?_)
              (ih ahead.length (by omega) ahead rfl)
            · simp [Ne.symm hline]
            · have hpast := hc.past.past
              rw [List.append_assoc] at hpast
              refine ⟨_, (readChar_of_escape hc.head?_eq hc.past.head?_eq).trans ?_, hpast⟩
              exact if_neg fun h => hline (beq_iff_eq.1 h)
      · by_cases hline : r = '\n'
        · subst hline
          refine .broken ['\n'] ahead rfl rfl fun {c _ _ _} hc => ?_
          exact ⟨_, readChar_of_head hc.head?_eq hslash, hc.past⟩
        · by_cases hquote : r = '\''
          · subst hquote
            -- the closing quote
            refine .closed ['\''] ahead rfl fun {c _ _ _} hc => ?_
            exact ⟨_, readChar_of_head hc.head?_eq hslash, hc.past⟩
          · -- a plain rune is passed over
            refine ReadsChar.prepend [r] ?_ (fun {c _ _ _} hc => ?_)
              (ih ahead.length (by omega) ahead rfl)
            · simp [Ne.symm hline]
            · refine ⟨_, (readChar_of_head hc.head?_eq hslash).trans ?_, hc.past⟩
              rw [if_neg fun h => hline (beq_iff_eq.1 h), if_neg fun h => hquote (beq_iff_eq.1 h)]

end Cursor

namespace Scanner

/-- The scan of a number from after its sign. -/
def scanMagnitude (s : Scanner) (c : Cursor) : ScanStep :=
  match c.readMagnitude.head? with
  | some r =>
    if isWordRune r then
      s.fail (c.readMagnitude.past r)
        ("bad number syntax: " ++ quoteText (c.readMagnitude.past r).pending)
        (c.readMagnitude.past r).span
    else s.emit c.readMagnitude .number
  | none => s.emit c.readMagnitude .number

theorem scanNumber_eq {s : Scanner} {c : Cursor} {signed : Bool}
    (haccept : s.cursor.accept Cursor.isSign = (signed, c)) :
    s.scanNumber =
      if signed && !c.head?.any continuesSign then s.emit c .literal else s.scanMagnitude c := by
  unfold scanNumber
  rw [haccept]
  dsimp only
  by_cases hsign : (signed && !c.head?.any continuesSign) = true
  · rw [if_pos hsign, if_pos hsign]
  · rw [if_neg hsign, if_neg hsign]
    unfold scanMagnitude
    cases c.readMagnitude.head? with
    | none => rfl
    | some r => rfl

end Scanner

end DeclFront
