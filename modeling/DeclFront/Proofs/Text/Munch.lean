import DeclFront.Proofs.Scan.Locality
import Mathlib.Computability.RegularExpressions
import Mathlib.Data.List.TakeWhile

/-!
# Reading the longest word

Regular expressions describe what a piece of source text may look like, and a chain of greedy
reading operations is meant to read such a piece. Being greedy is safe only where no rune could be
taken for two things: a run that swallows the first rune of what should come after it loses words.

* `Longest`: what is the longest word of an expression among the runes ahead;
* `Cursor.Munches`: an operation always reads the longest word of an expression;
* `Cursor.Munches.comp`: one such operation after another reads the longest word of the two
  expressions in a row, if no letter of the first one is an initial of the second. This condition is
  computed from the expressions (`apart`), so that it is decided and not proved.
-/

namespace DeclFront

open Computability

/-! ### Letters of an expression -/

/-- Any one of the runes. -/
def oneOf (runes : List Char) : RegularExpression Char :=
  (runes.map .char).sum

/-- The expression, or nothing. -/
def maybe (e : RegularExpression Char) : RegularExpression Char :=
  1 + e

/-- The runes of which an expression makes its words. -/
def letters : RegularExpression Char → List Char
  | .zero | .epsilon => []
  | .char r => [r]
  | .plus e d | .comp e d => letters e ++ letters d
  | .star e => letters e

/-- The runes with which a word of the expression can begin. -/
def initials : RegularExpression Char → List Char
  | .zero | .epsilon => []
  | .char r => [r]
  | .plus e d => initials e ++ initials d
  | .comp e d => if e.matchEpsilon then initials e ++ initials d else initials e
  | .star e => initials e

/-- Whether the two lists have no rune in common. -/
def disjoint (runes others : List Char) : Bool :=
  runes.all (!others.contains ·)

/-- Whether no rune of which the first expression makes its words can begin one of the second. -/
def apart (e d : RegularExpression Char) : Bool :=
  disjoint (initials d) (letters e)

variable {e d : RegularExpression Char} {w u ahead taken rest more : List Char} {r : Char}
  {runes : List Char}

/-- What is in one of two disjoint lists is not in the other. -/
theorem notMem_of_disjoint {others : List Char} (h : disjoint runes others = true)
    (hr : r ∈ runes) : r ∉ others := by
  have hnot := List.all_eq_true.1 h r hr
  rwa [Bool.not_eq_true', ← Bool.not_eq_true, List.contains_iff_mem] at hnot

/-- The runes of a word are letters of its expression. -/
theorem mem_letters (hw : w ∈ e.matches') (hr : r ∈ w) : r ∈ letters e := by
  induction e generalizing w with
  | zero => cases hw
  | epsilon =>
    obtain rfl : w = [] := hw
    cases hr
  | char q =>
    obtain rfl : w = [q] := hw
    exact hr
  | plus e d ihe ihd =>
    obtain hw | hw := hw
    · exact List.mem_append_left _ (ihe hw hr)
    · exact List.mem_append_right _ (ihd hw hr)
  | comp e d ihe ihd =>
    obtain ⟨u, hu, v, hv, rfl⟩ := Language.mem_mul.1 hw
    obtain hr | hr := List.mem_append.1 hr
    · exact List.mem_append_left _ (ihe hu hr)
    · exact List.mem_append_right _ (ihd hv hr)
  | star e ih =>
    obtain ⟨words, rfl, hwords⟩ := Language.mem_kstar.1 hw
    obtain ⟨word, hword, hr⟩ := List.mem_flatten.1 hr
    exact ih (hwords word hword) hr

/-- That the empty word is one can be computed. -/
theorem matchEpsilon_of_mem (h : [] ∈ e.matches') : e.matchEpsilon = true :=
  (RegularExpression.rmatch_iff_matches' e []).2 h

/-- The first rune of a word is an initial of its expression. -/
theorem mem_initials (hw : r :: w ∈ e.matches') : r ∈ initials e := by
  induction e generalizing w with
  | zero => cases hw
  | epsilon => cases hw
  | char q =>
    obtain ⟨rfl, -⟩ := List.cons.inj hw
    exact List.mem_singleton_self r
  | plus e d ihe ihd =>
    obtain hw | hw := hw
    · exact List.mem_append_left _ (ihe hw)
    · exact List.mem_append_right _ (ihd hw)
  | comp e d ihe ihd =>
    obtain ⟨u, hu, v, hv, hsplit⟩ := Language.mem_mul.1 hw
    rw [initials]
    cases u with
    | nil =>
      -- the first word is empty, so the second one has the first rune
      rw [if_pos (matchEpsilon_of_mem hu)]
      obtain rfl : v = r :: w := hsplit
      exact List.mem_append_right _ (ihd hv)
    | cons q u =>
      obtain ⟨rfl, -⟩ := List.cons.inj hsplit
      split_ifs
      · exact List.mem_append_left _ (ihe hu)
      · exact ihe hu
  | star e ih =>
    -- a word of a star is made of words that are not empty, if it is not empty itself
    obtain ⟨words, hsplit, hwords⟩ := Language.mem_kstar_iff_exists_nonempty.1 hw
    cases words with
    | nil => cases hsplit
    | cons word words =>
      obtain ⟨hword, hne⟩ := hwords word List.mem_cons_self
      obtain ⟨q, word, rfl⟩ := List.exists_cons_of_ne_nil hne
      obtain ⟨rfl, -⟩ := List.cons.inj hsplit
      exact ih hword

/-! ### Words of the simplest expressions -/

/-- A word of one rune. -/
theorem mem_oneOf : w ∈ (oneOf runes).matches' ↔ ∃ r ∈ runes, w = [r] := by
  induction runes with
  | nil =>
    refine ⟨fun hw => ?_, fun ⟨r, hr, _⟩ => ?_⟩
    · cases hw
    · cases hr
  | cons q runes ih =>
    have hsum : w ∈ (oneOf (q :: runes)).matches' ↔ w = [q] ∨ w ∈ (oneOf runes).matches' := Iff.rfl
    rw [hsum, ih, List.exists_mem_cons_iff]

/-- Any number of runes. -/
theorem mem_star_oneOf : w ∈ (oneOf runes).star.matches' ↔ ∀ r ∈ w, r ∈ runes := by
  rw [RegularExpression.matches'_star, Language.mem_kstar]
  refine ⟨?_, fun hw => ⟨w.map fun r => [r], ?_, ?_⟩⟩
  · rintro ⟨words, rfl, hwords⟩ r hr
    obtain ⟨word, hword, hr⟩ := List.mem_flatten.1 hr
    obtain ⟨q, hq, rfl⟩ := mem_oneOf.1 (hwords word hword)
    rwa [List.mem_singleton.1 hr]
  · rw [← List.flatMap_def]
    exact (List.flatMap_singleton' w).symm
  · intro word hword
    obtain ⟨r, hr, rfl⟩ := List.mem_map.1 hword
    exact mem_oneOf.2 ⟨r, hw r hr, rfl⟩

/-- The empty word, or one of the expression. -/
theorem mem_maybe : w ∈ (maybe e).matches' ↔ w = [] ∨ w ∈ e.matches' := Iff.rfl

/-- The empty word is one of what may be missing. -/
theorem nil_mem_maybe : [] ∈ (maybe e).matches' := mem_maybe.2 (.inl rfl)

/-- A rune of a sort, and a word behind it. -/
theorem cons_mem_oneOf_mul :
    r :: w ∈ (oneOf runes * e).matches' ↔ r ∈ runes ∧ w ∈ e.matches' := by
  rw [RegularExpression.matches'_mul, Language.mem_mul]
  refine ⟨?_, fun ⟨hr, hw⟩ => ⟨[r], mem_oneOf.2 ⟨r, hr, rfl⟩, w, hw, rfl⟩⟩
  rintro ⟨u, hu, v, hv, hsplit⟩
  obtain ⟨q, hq, rfl⟩ := mem_oneOf.1 hu
  obtain ⟨rfl, rfl⟩ := List.cons.inj hsplit
  exact ⟨hq, hv⟩

/-- One more of the runes in front of a run of them. -/
theorem cons_mem_star_mul (hr : r ∈ runes) (hinitial : r ∉ initials e) :
    r :: w ∈ ((oneOf runes).star * e).matches' ↔ w ∈ ((oneOf runes).star * e).matches' := by
  rw [RegularExpression.matches'_mul, Language.mem_mul, Language.mem_mul]
  refine ⟨?_, fun ⟨run, hrun, v, hv, hsplit⟩ => ⟨r :: run, ?_, v, hv, ?_⟩⟩
  · rintro ⟨run, hrun, v, hv, hsplit⟩
    cases run with
    | nil =>
      -- `r` would begin what comes after the run
      obtain rfl : v = r :: w := hsplit
      exact absurd (mem_initials hv) hinitial
    | cons q run =>
      obtain ⟨rfl, rfl⟩ := List.cons.inj hsplit
      rw [mem_star_oneOf, List.forall_mem_cons] at hrun
      exact ⟨run, mem_star_oneOf.2 hrun.2, v, hv, rfl⟩
  · rw [mem_star_oneOf] at hrun ⊢
    exact List.forall_mem_cons.2 ⟨hr, hrun⟩
  · rw [List.cons_append, hsplit]

/-- Where a rune has to come first, the empty word is none. -/
theorem nil_notMem_oneOf_mul : [] ∉ (oneOf runes * e).matches' := by
  rw [RegularExpression.matches'_mul, Language.mem_mul]
  rintro ⟨u, hu, v, hv, hsplit⟩
  obtain ⟨q, hq, rfl⟩ := mem_oneOf.1 hu
  cases hsplit

/-! ### Expressions whose words can be broken off anywhere -/

/-- What a text in two parts begins with ends in one of them. -/
theorem prefix_or_of_prefix_append {a b : List Char} (h : u <+: a ++ b) :
    u <+: a ∨ ∃ v, v <+: b ∧ u = a ++ v := by
  obtain hshort | ⟨v, rfl⟩ := List.prefix_or_prefix_of_prefix h (List.prefix_append a b)
  · exact .inl hshort
  · exact .inr ⟨v, (List.prefix_append_right_inj a).1 h, rfl⟩

/-- What a word of the expression begins with is a word of it too. -/
def PrefixClosed (e : RegularExpression Char) : Prop :=
  ∀ ⦃w u : List Char⦄, w ∈ e.matches' → u <+: w → u ∈ e.matches'

/-- A run of runes can be broken off anywhere. -/
theorem prefixClosed_star (runes : List Char) : PrefixClosed (oneOf runes).star := by
  intro w u hw hu
  rw [mem_star_oneOf] at hw ⊢
  exact fun r hr => hw r (hu.subset hr)

/-- So can two parts in a row, if each of them can. -/
theorem PrefixClosed.mul (he : PrefixClosed e) (hd : PrefixClosed d) : PrefixClosed (e * d) := by
  intro w u hw hu
  obtain ⟨a, ha, b, hb, rfl⟩ := Language.mem_mul.1 hw
  -- broken off in the first part, the second one is empty
  obtain hfirst | ⟨v, hv, rfl⟩ := prefix_or_of_prefix_append hu
  · exact Language.mem_mul.2 ⟨u, he ha hfirst, [], hd hb List.nil_prefix, List.append_nil u⟩
  · exact Language.mem_mul.2 ⟨a, ha, v, hd hb hv, rfl⟩

/-- So can what begins with a rune of a sort and may be missing. -/
theorem PrefixClosed.maybe_oneOf_mul (he : PrefixClosed e) (runes : List Char) :
    PrefixClosed (maybe (oneOf runes * e)) := by
  intro w u hw hu
  cases u with
  | nil => exact nil_mem_maybe
  | cons r u =>
    obtain ⟨v, rfl⟩ := hu
    obtain hw | hw := mem_maybe.1 hw
    · cases hw
    · obtain ⟨hr, hw⟩ := cons_mem_oneOf_mul.1 hw
      exact mem_maybe.2 (.inr (cons_mem_oneOf_mul.2 ⟨hr, he hw (List.prefix_append u v)⟩))

/-- So can a single rune that may be missing. -/
theorem prefixClosed_maybe_oneOf (runes : List Char) : PrefixClosed (maybe (oneOf runes)) := by
  intro w u hw hu
  obtain rfl | hw := mem_maybe.1 hw
  · rw [List.prefix_nil.1 hu]
    exact nil_mem_maybe
  · obtain ⟨r, hr, rfl⟩ := mem_oneOf.1 hw
    obtain rfl | ⟨v, rfl, hv⟩ := List.prefix_cons_iff.1 hu
    · exact nil_mem_maybe
    · rw [List.prefix_nil.1 hv]
      exact mem_maybe.2 (.inr (mem_oneOf.2 ⟨r, hr, rfl⟩))

/-! ### The longest word ahead -/

/-- Of the runes `ahead`, `taken` are the longest word of the expression that they begin with. -/
structure Longest (e : RegularExpression Char) (ahead taken rest : List Char) : Prop where
  split : ahead = taken ++ rest
  mem : taken ∈ e.matches'
  longest : ∀ w ∈ e.matches', w <+: ahead → w <+: taken

/-- There is only one longest word. -/
theorem Longest.unique {taken' rest' : List Char} (h : Longest e ahead taken rest)
    (h' : Longest e ahead taken' rest') : taken = taken' ∧ rest = rest' := by
  have htaken : taken = taken' := by
    -- each of them is a word, so it is no longer than the other
    have hle : taken <+: taken' :=
      h'.longest taken h.mem (h.split ▸ List.prefix_append taken rest)
    have hge : taken' <+: taken :=
      h.longest taken' h'.mem (h'.split ▸ List.prefix_append taken' rest')
    exact hle.eq_of_length_le hge.length_le
  refine ⟨htaken, ?_⟩
  have hsplit := h.split.symm.trans h'.split
  rw [htaken] at hsplit
  exact List.append_cancel_left hsplit

/-- The rune behind the longest word does not continue it to a word. -/
theorem Longest.concat_notMem (h : Longest e ahead taken (r :: rest)) :
    taken ++ [r] ∉ e.matches' := by
  intro hmem
  have hprefix : taken ++ [r] <+: ahead := by
    rw [h.split]
    exact (List.prefix_append_right_inj taken).2 ⟨rest, rfl⟩
  have hlength := (h.longest _ hmem hprefix).length_le
  rw [List.length_append, List.length_singleton] at hlength
  omega

/-- Behind a word stands a rune that no word has. -/
theorem longest_of_head (hw : w ∈ e.matches') (hmore : ∀ r, more.head? = some r → r ∉ letters e) :
    Longest e (w ++ more) w more := by
  refine ⟨rfl, hw, fun u hu hprefix => ?_⟩
  obtain hshort | ⟨v, hv, rfl⟩ := prefix_or_of_prefix_append hprefix
  · exact hshort
  · cases v with
    | nil => exact (List.append_nil w).symm ▸ List.prefix_refl w
    | cons r v =>
      obtain ⟨tail, rfl⟩ := hv
      exact absurd (mem_letters hu (List.mem_append_right w List.mem_cons_self)) (hmore r rfl)

/-- Behind a word stands a rune that would not continue it to a word. -/
theorem PrefixClosed.longest_of_notMem (he : PrefixClosed e) (hw : w ∈ e.matches')
    (hr : w ++ [r] ∉ e.matches') : Longest e (w ++ r :: more) w (r :: more) := by
  refine ⟨rfl, hw, fun u hu hprefix => ?_⟩
  obtain hshort | ⟨v, hv, rfl⟩ := prefix_or_of_prefix_append hprefix
  · exact hshort
  · cases v with
    | nil => exact (List.append_nil w).symm ▸ List.prefix_refl w
    | cons q v =>
      -- a longer word would have `w ++ [r]` in front of it
      obtain ⟨rfl, -⟩ := List.cons_prefix_cons.1 hv
      refine absurd (he hu ⟨v, ?_⟩) hr
      rw [List.append_assoc]
      rfl

namespace Cursor

variable {c : Cursor} {before piece : List Char} {op f g : Cursor → Cursor} {p : Char → Bool}

/-- A cursor can hold only one piece at a time. -/
theorem Holds.piece_unique {piece' ahead' : List Char} (h : c.Holds before piece ahead)
    (h' : c.Holds before piece' ahead') : piece = piece' ∧ ahead = ahead' := by
  have hsplit := List.append_cancel_left (h.source_eq.symm.trans h'.source_eq)
  have hsize : byteLength piece = byteLength piece' :=
    Nat.add_left_cancel (h.offset_eq.symm.trans h'.offset_eq)
  -- where one of the two pieces is longer, it has a rune more, which takes some bytes
  obtain ⟨more, rfl, hahead⟩ | ⟨more, rfl, hahead⟩ := List.append_eq_append_iff.1 hsplit
  all_goals
    rw [byteLength_append] at hsize
    cases more with
    | nil => exact ⟨by simp, by simp_all⟩
    | cons q more =>
      have hpos := Char.utf8Size_pos q
      rw [byteLength_cons] at hsize
      omega

/-- The operation reads the longest word of the expression, wherever the runes stand. -/
def Munches (op : Cursor → Cursor) (e : RegularExpression Char) : Prop :=
  ∀ ahead, ∃ taken rest, Longest e ahead taken rest ∧
    ∀ {c : Cursor} {before piece : List Char}, c.Holds before piece ahead →
      (op c).Holds before (piece ++ taken) rest

/-- What is read is the longest word, whichever way that was found. -/
theorem Munches.holds (h : Munches op e) (hlongest : Longest e ahead taken rest)
    (hc : c.Holds before piece ahead) : (op c).Holds before (piece ++ taken) rest := by
  obtain ⟨taken', rest', hlongest', hop⟩ := h ahead
  obtain ⟨rfl, rfl⟩ := hlongest.unique hlongest'
  exact hop hc

/-- A run of runes. -/
theorem munches_skip (hp : ∀ r, p r = true ↔ r ∈ runes) :
    Munches (fun c => c.skip p) (oneOf runes).star := by
  intro ahead
  refine ⟨ahead.takeWhile p, ahead.dropWhile p, ⟨?_, ?_, fun w hw hprefix => ?_⟩,
    fun hc => hc.skip p⟩
  · exact List.takeWhile_append_dropWhile.symm
  · exact mem_star_oneOf.2 fun r hr => (hp r).1 (List.mem_takeWhile_imp hr)
  · obtain ⟨tail, rfl⟩ := hprefix
    have hall : ∀ r ∈ w, p r = true := fun r hr => (hp r).2 (mem_star_oneOf.1 hw r hr)
    rw [List.takeWhile_append_of_pos hall]
    exact List.prefix_append _ _

/-- A rune and what is read behind it, or nothing. -/
theorem Munches.maybe_oneOf_mul (h : Munches op e) (hp : ∀ r, p r = true ↔ r ∈ runes) :
    Munches (fun c => if c.head?.any p then op (c.skipOne p) else c.skipOne p)
      (maybe (oneOf runes * e)) := by
  intro ahead
  cases hhead : ahead.head?.any p with
  | true =>
    obtain ⟨r, tail, rfl, hr⟩ : ∃ r tail, ahead = r :: tail ∧ p r = true := by
      cases ahead with
      | nil => cases hhead
      | cons r tail => exact ⟨r, tail, rfl, hhead⟩
    obtain ⟨taken, rest, hlongest, hop⟩ := h tail
    refine ⟨r :: taken, rest, ⟨?_, ?_, fun w hw hprefix => ?_⟩, fun {c _ _} hc => ?_⟩
    · rw [hlongest.split]
      rfl
    · exact mem_maybe.2 (.inr (cons_mem_oneOf_mul.2 ⟨(hp r).1 hr, hlongest.mem⟩))
    · cases w with
      | nil => exact List.nil_prefix
      | cons q w =>
        obtain ⟨rfl, htail⟩ := List.cons_prefix_cons.1 hprefix
        have hw := (mem_maybe.1 hw).resolve_left (List.cons_ne_nil q w)
        exact List.cons_prefix_cons.2
          ⟨rfl, hlongest.longest w (cons_mem_oneOf_mul.1 hw).2 htail⟩
    · have hany : c.head?.any p = true := by rw [hc.head?_eq, hhead]
      dsimp only
      rw [if_pos hany, skipOne_of_head hc.head?_eq hr]
      have hread := hop hc.past
      rwa [List.append_assoc] at hread
  | false =>
    refine ⟨[], ahead, ⟨rfl, nil_mem_maybe, fun w hw hprefix => ?_⟩, fun {c _ _} hc => ?_⟩
    · cases w with
      | nil => exact List.nil_prefix
      | cons q w =>
        -- its first rune is the one that does not pass
        have hw := (mem_maybe.1 hw).resolve_left (List.cons_ne_nil q w)
        obtain ⟨tail, rfl⟩ := hprefix
        have hq : p q = false := hhead
        rw [(hp q).2 (cons_mem_oneOf_mul.1 hw).1] at hq
        cases hq
    · have hany : c.head?.any p = false := by rw [hc.head?_eq, hhead]
      dsimp only
      rw [hany, if_neg Bool.false_ne_true, skipOne_of_not_any hany, List.append_nil]
      exact hc.settle

/-- Only the words of an expression matter. -/
theorem Munches.congr (h : Munches op e) (hed : e.matches' = d.matches') : Munches op d := by
  intro ahead
  obtain ⟨taken, rest, hlongest, hop⟩ := h ahead
  refine ⟨taken, rest, ⟨hlongest.split, hed ▸ hlongest.mem, fun w hw => ?_⟩, hop⟩
  exact hlongest.longest w (hed ▸ hw)

/-- A rune, or nothing. -/
theorem munches_skipOne (hp : ∀ r, p r = true ↔ r ∈ runes) :
    Munches (fun c => c.skipOne p) (maybe (oneOf runes)) := by
  -- it is the rune with nothing read behind it
  have hnothing : Munches id 1 := by
    intro ahead
    refine ⟨[], ahead, ⟨rfl, Language.nil_mem_one, fun w hw _ => ?_⟩, fun hc => ?_⟩
    · obtain rfl : w = [] := hw
      exact List.nil_prefix
    · rwa [List.append_nil]
  have hmunches := hnothing.maybe_oneOf_mul hp
  simp only [id_eq, ite_self] at hmunches
  refine hmunches.congr ?_
  show 1 + (oneOf runes).matches' * 1 = 1 + (oneOf runes).matches'
  rw [mul_one]

/-- **One operation after another** reads the longest word of the two expressions in a row, if the
first one cannot swallow the beginning of the second. -/
theorem Munches.comp (hf : Munches f e) (hg : Munches g d)
    (hapart : apart e d = true) : Munches (fun c => g (f c)) (e * d) := by
  intro ahead
  obtain ⟨first, middle, hfirst, hopf⟩ := hf ahead
  obtain ⟨second, rest, hsecond, hopg⟩ := hg middle
  refine ⟨first ++ second, rest, ⟨?_, ?_, fun w hw hprefix => ?_⟩, fun hc => ?_⟩
  · rw [hfirst.split, hsecond.split, List.append_assoc]
  · exact Language.mem_mul.2 ⟨first, hfirst.mem, second, hsecond.mem, rfl⟩
  · obtain ⟨u, hu, v, hv, rfl⟩ := Language.mem_mul.1 hw
    obtain ⟨mid, rfl⟩ := hfirst.longest u hu ((List.prefix_append u v).trans hprefix)
    rw [hfirst.split, List.append_assoc] at hprefix
    rw [List.append_assoc]
    refine (List.prefix_append_right_inj u).2 ?_
    have hrest := (List.prefix_append_right_inj u).1 hprefix
    cases v with
    | nil => exact List.nil_prefix
    | cons r v =>
      cases mid with
      | nil => exact hsecond.longest (r :: v) hv hrest
      | cons q mid =>
        -- the longer first word would have the initial `r` of the second one among its letters
        obtain ⟨rfl, -⟩ := List.cons_prefix_cons.1 hrest
        refine absurd (mem_letters hfirst.mem ?_) (notMem_of_disjoint hapart (mem_initials hv))
        exact List.mem_append_right u List.mem_cons_self
  · have hread := hopg (hopf hc)
    rwa [List.append_assoc] at hread

end Cursor

end DeclFront
