import DeclFront.Scan.Delimited
import Mathlib.Data.List.Infix

/-!
# Reading in terms of runes

A cursor works on byte offsets. What it does to the runes around it is simpler to say: a cursor
*holds* a piece, with some runes before the piece and some ahead (`Cursor.Holds`), and reading moves
runes from ahead into the piece. Each operation of the scanner gets one lemma in these terms:

* `Holds.skip`: a run is the longest one;
* `Holds.seek_closed` and `Holds.seek_cases`: a delimited piece without escapes ends at the first
  place where its closer stands, and there is none otherwise;
* `Holds.pending_eq`: the text of the piece.
-/

namespace DeclFront

/-- The runes `closer` stand nowhere in `body ++ closer` but at its end. -/
def Clear (closer : List Char) : List Char → Prop
  | [] => True
  | r :: body => ¬ closer <+: r :: (body ++ closer) ∧ Clear closer body

/-- There is no run of runes that satisfy `p` where the first rune does not. -/
theorem takeWhile_eq_nil_of_head {p : Char → Bool} {ahead : List Char}
    (h : ∀ q, ahead.head? = some q → ¬ p q = true) :
    ahead.takeWhile p = [] ∧ ahead.dropWhile p = ahead := by
  cases ahead with
  | nil => exact ⟨rfl, rfl⟩
  | cons q ahead =>
    exact ⟨List.takeWhile_cons_of_neg (h q rfl), List.dropWhile_cons_of_neg (h q rfl)⟩

/-- The token of a kind that the runes `piece` make, with the runes `before` before them. -/
def Token.ofPiece (kind : TokenKind) (before piece : List Char) : Token :=
  ⟨kind, String.ofList piece, ⟨byteLength before, byteLength before + byteLength piece⟩⟩

namespace Cursor

/-- The cursor holds the runes `piece`; the runes `before` lie before them and `ahead` after. -/
structure Holds (c : Cursor) (before piece ahead : List Char) : Prop where
  source_eq : c.source.toList = before ++ (piece ++ ahead)
  mark_eq : c.mark = byteLength before
  offset_eq : c.offset = byteLength before + byteLength piece

/-- A new cursor holds nothing, and everything is ahead. -/
theorem holds_ofSource (source : String) : (ofSource source).Holds [] [] source.toList :=
  ⟨rfl, rfl, rfl⟩

namespace Holds

variable {c : Cursor} {before piece ahead : List Char} {r : Char}

/-- The place is between the piece and what is ahead. -/
theorem between (h : c.Holds before piece ahead) : c.Between (before ++ piece) ahead := by
  refine ⟨?_, ?_⟩
  · rw [h.source_eq, List.append_assoc]
  · rw [h.offset_eq, byteLength_append]

/-- The next rune is the first one ahead. -/
theorem head?_eq (h : c.Holds before piece ahead) : c.head? = ahead.head? :=
  h.between.head?_eq

/-- Settling moves nothing. -/
theorem settle (h : c.Holds before piece ahead) : c.settle.Holds before piece ahead :=
  ⟨h.source_eq, h.mark_eq, h.offset_eq⟩

/-- Reading a rune moves it into the piece. -/
theorem past (h : c.Holds before piece (r :: ahead)) :
    (c.past r).Holds before (piece ++ [r]) ahead := by
  refine ⟨?_, h.mark_eq, ?_⟩
  · rw [List.append_assoc]
    exact h.source_eq
  · show c.offset + r.utf8Size = _
    rw [h.offset_eq, byteLength_append, Nat.add_assoc]
    rfl

/-- Moving the mark leaves the piece behind. -/
theorem discard (h : c.Holds before piece ahead) : c.discard.Holds (before ++ piece) [] ahead := by
  refine ⟨h.between.1, h.between.2, ?_⟩
  show c.offset = _
  rw [h.between.2, byteLength_nil, Nat.add_zero]

/-- Moving over runes that are ahead takes them into the piece. -/
theorem jump {runes : List Char} (h : c.Holds before piece (runes ++ ahead)) :
    (c.jump (byteLength runes)).Holds before (piece ++ runes) ahead := by
  refine ⟨?_, h.mark_eq, ?_⟩
  · rw [List.append_assoc]
    exact h.source_eq
  · have hsize : c.source.utf8ByteSize =
        byteLength before + byteLength piece + byteLength runes + byteLength ahead := by
      rw [utf8ByteSize_eq_byteLength, h.source_eq]
      simp only [byteLength_append, Nat.add_assoc]
    -- the jump is cut off at the end of the source, which lies no nearer than these runes reach
    show min (c.offset + byteLength runes) c.source.utf8ByteSize = _
    rw [h.offset_eq, hsize, byteLength_append]
    omega

/-- The text of the piece. -/
theorem pending_eq (h : c.Holds before piece ahead) : c.pending = String.ofList piece := by
  rw [pending, h.mark_eq, h.offset_eq]
  exact slice_append h.source_eq

/-- The token that is made of the piece. -/
theorem token_eq (h : c.Holds before piece ahead) (kind : TokenKind) :
    (⟨kind, c.pending, c.span⟩ : Token) = .ofPiece kind before piece := by
  rw [h.pending_eq, span, h.mark_eq, h.offset_eq]
  rfl

/-! ### Runs -/

/-- However many runes were counted before, the rest of the run is read. -/
theorem skipFrom (h : c.Holds before piece ahead) (p : Char → Bool) (count : Nat) :
    (Cursor.skipFrom p count c).2.Holds before (piece ++ ahead.takeWhile p)
      (ahead.dropWhile p) := by
  -- on the runes ahead: one that passes joins the piece
  induction ahead generalizing c piece count with
  | nil =>
    have hhead : c.head? = none := h.head?_eq
    rw [Cursor.skipFrom]
    split
    · rw [List.takeWhile_nil, List.dropWhile_nil, List.append_nil]
      exact h.settle
    · next r hr => rw [hhead] at hr; cases hr
  | cons r ahead ih =>
    have hhead : c.head? = some r := h.head?_eq
    rw [Cursor.skipFrom]
    split
    · next hnone => rw [hhead] at hnone; cases hnone
    · next r' hr' =>
      obtain rfl : r = r' := Option.some.inj (hhead.symm.trans hr')
      by_cases hr : p r = true
      · rw [if_pos hr, List.takeWhile_cons_of_pos hr, List.dropWhile_cons_of_pos hr]
        have hrest := ih h.past (count + 1)
        rwa [List.append_assoc] at hrest
      · rw [if_neg hr, List.takeWhile_cons_of_neg hr, List.dropWhile_cons_of_neg hr,
          List.append_nil]
        exact h.settle

/-- A run is the longest one. -/
theorem skip (h : c.Holds before piece ahead) (p : Char → Bool) :
    (c.skip p).Holds before (piece ++ ahead.takeWhile p) (ahead.dropWhile p) :=
  h.skipFrom p 0

/-! ### Delimited pieces -/

/-- Runes are found at an offset exactly if what stands there begins with them. -/
theorem matchesAt_iff {source : String} {before ahead : List Char}
    (h : source.toList = before ++ ahead) (runes : List Char) :
    matchesAt source (byteLength before) runes = true ↔ runes <+: ahead := by
  -- each rune that matches moves to the runes before, so that the offset stays a length of runes
  induction runes generalizing before ahead with
  | nil => exact ⟨fun _ => List.nil_prefix, fun _ => rfl⟩
  | cons q runes ih =>
    rw [matchesAt, runeAt?_append h, Bool.and_eq_true, beq_iff_eq]
    cases ahead with
    | nil =>
      refine ⟨fun hq => ?_, fun hq => ?_⟩
      · cases hq.1
      · cases List.prefix_nil.1 hq
    | cons r ahead =>
      rw [List.cons_prefix_cons, List.head?_cons, Option.some.injEq]
      refine ⟨?_, ?_⟩
      · rintro ⟨rfl, hmatch⟩
        have hsplit : source.toList = (before ++ [r]) ++ ahead := by
          rw [h, List.append_assoc]
          rfl
        have hiff := ih hsplit
        rw [byteLength_append, byteLength_cons, byteLength_nil, Nat.add_zero] at hiff
        exact ⟨rfl, hiff.1 hmatch⟩
      · rintro ⟨rfl, hmatch⟩
        have hsplit : source.toList = (before ++ [q]) ++ ahead := by
          rw [h, List.append_assoc]
          rfl
        have hiff := ih hsplit
        rw [byteLength_append, byteLength_cons, byteLength_nil, Nat.add_zero] at hiff
        exact ⟨rfl, hiff.2 hmatch⟩

/-- So they are at the place of a cursor. -/
theorem lookingAt_iff (h : c.Holds before piece ahead) (runes : List Char) :
    c.lookingAt runes = true ↔ runes <+: ahead := by
  rw [lookingAt, h.between.2]
  exact matchesAt_iff h.between.1 runes

/-- A closer that stands here ends the search. -/
theorem seek_here {form : Delimited} (h : c.lookingAt form.closer = true) :
    c.seek form = (true, c) := by
  rw [seek, if_pos h]

/-- Where the closer does not stand, a form without escapes reads one rune. -/
theorem seek_past {form : Delimited} (hplain : form.escapes = false)
    (h : ¬ c.lookingAt form.closer = true) (hhead : c.head? = some r) :
    c.seek form = (c.past r).seek form := by
  rw [seek, if_neg h]
  split
  · next hnone => rw [hhead] at hnone; cases hnone
  · next r' hr' =>
    obtain rfl : r = r' := Option.some.inj (hhead.symm.trans hr')
    rw [hplain, Bool.false_and]
    exact if_neg Bool.false_ne_true

/-- At the end of the runes the search has failed. -/
theorem seek_end {form : Delimited} (h : ¬ c.lookingAt form.closer = true)
    (hhead : c.head? = none) : c.seek form = (false, c.settle) := by
  rw [seek, if_neg h]
  split
  · rfl
  · next r hr => rw [hhead] at hr; cases hr

/-- A delimited piece without escapes ends where its closer first stands. -/
theorem seek_closed {form : Delimited} (hplain : form.escapes = false) {body : List Char}
    (h : c.Holds before piece (body ++ (form.closer ++ ahead))) (hclear : Clear form.closer body) :
    ∃ c', c.seek form = (true, c') ∧ c'.Holds before (piece ++ body) (form.closer ++ ahead) := by
  induction body generalizing c piece with
  | nil =>
    refine ⟨c, seek_here ((h.lookingAt_iff _).2 (List.prefix_append _ _)), ?_⟩
    rwa [List.append_nil]
  | cons r body ih =>
    obtain ⟨hnot, hclear⟩ := hclear
    have hlook : ¬ c.lookingAt form.closer = true := by
      intro hlook
      have hfirst := (h.lookingAt_iff _).1 hlook
      -- The closer is no longer than the runes up to its own end, so it stands among these.
      refine hnot (List.prefix_of_prefix_length_le hfirst ⟨ahead, ?_⟩ ?_)
      · simp only [List.cons_append, List.append_assoc]
      · simp only [List.length_cons, List.length_append]
        omega
    rw [seek_past hplain hlook h.head?_eq]
    obtain ⟨c', hseek, hc'⟩ := ih h.past hclear
    refine ⟨c', hseek, ?_⟩
    rwa [List.append_assoc] at hc'

/-- A form without escapes finds its closer, or there is none ahead. -/
theorem seek_cases {form : Delimited} (hplain : form.escapes = false) (hcloser : form.closer ≠ [])
    (h : c.Holds before piece ahead) :
    (∃ body rest, ahead = body ++ (form.closer ++ rest) ∧ Clear form.closer body) ∨
      ∃ c', c.seek form = (false, c') := by
  induction ahead generalizing c piece with
  | nil =>
    -- nothing is ahead, and the closer is not empty
    have hlook : ¬ c.lookingAt form.closer = true := by
      intro hlook
      exact hcloser (List.prefix_nil.1 ((h.lookingAt_iff _).1 hlook))
    exact .inr ⟨_, seek_end hlook h.head?_eq⟩
  | cons r ahead ih =>
    by_cases hlook : c.lookingAt form.closer = true
    · obtain ⟨rest, hrest⟩ := (h.lookingAt_iff _).1 hlook
      exact .inl ⟨[], rest, hrest.symm, trivial⟩
    · -- a closer found further on would stand in front of `r` only if it was seen there
      rw [seek_past hplain hlook h.head?_eq]
      obtain ⟨body, rest, rfl, hclear⟩ | hfalse := ih h.past
      · refine .inl ⟨r :: body, rest, rfl, fun hfirst => hlook ?_, hclear⟩
        refine (h.lookingAt_iff _).2 (hfirst.trans ⟨rest, ?_⟩)
        simp only [List.cons_append, List.append_assoc]
      · exact .inr hfalse

end Holds

end Cursor

end DeclFront
