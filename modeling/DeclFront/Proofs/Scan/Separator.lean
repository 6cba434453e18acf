import DeclFront.Proofs.Scan.Piece

/-!
# Separators

What may stand between two tokens without adding to them: white space and closed comments, in any
number and order (`Separator`). Two facts make this description exact:

* `Separator.exists_tokens`: wherever such runes stand between tokens, a scan reads them as comments
  and goes on after them;
* `Separator.of_tokens`: a text whose only tokens are comments is such a text.

Together they are `Separator.iff_lex`. The second is a proof by looking at each rune that may come
next: all that is neither white space nor the start of a comment leaves some other token behind.
-/

namespace DeclFront

open Scanner

/-- Runes that make up white space and closed comments. -/
inductive Separator : List Char → Prop
  | nil : Separator []
  | white {r : Char} {runes : List Char} (h : isWhite r = true) (rest : Separator runes) :
      Separator (r :: runes)
  | comment {q : Char} {state : ScanState} {form : Delimited} {body runes : List Char}
      (mark : CommentMark q state form) (hclear : Clear form.closer body)
      (rest : Separator runes) : Separator ('/' :: q :: (body ++ (form.closer ++ runes)))

/-- **A separator leaves only comments**, whatever stands before and after it. -/
theorem Separator.exists_tokens {s : Scanner} {before runes ahead : List Char}
    {depths : Bracket → Nat} (hsep : Separator runes)
    (h : s.Stands before (runes ++ ahead) depths) :
    ∃ (ts : List Token) (s' : Scanner), (∀ t ∈ ts, t.kind = .comment) ∧
      s'.Stands (before ++ runes) ahead depths ∧ s.run.tokens = ts ++ s'.run.tokens := by
  induction hsep generalizing s before with
  | nil =>
    refine ⟨[], s, fun t ht => ?_, ?_, rfl⟩
    · cases ht
    · rwa [List.append_nil]
  | @white r runes hr rest ih =>
    obtain ⟨s', hs', htokens⟩ := h.white hr
    obtain ⟨ts, s'', hts, hs'', htokens'⟩ := ih hs'
    refine ⟨ts, s'', hts, ?_, htokens.trans htokens'⟩
    rwa [List.append_assoc] at hs''
  | @comment q state form body runes mark hclear rest ih =>
    have hsplit : '/' :: q :: (body ++ (form.closer ++ runes)) ++ ahead =
        '/' :: q :: (body ++ (form.closer ++ (runes ++ ahead))) := by
      simp only [List.cons_append, List.append_assoc]
    rw [hsplit] at h
    -- the comment is one token, and the separator goes on behind it
    obtain ⟨s', hs', htokens⟩ := h.comment mark hclear
    obtain ⟨ts, s'', hts, hs'', htokens'⟩ := ih hs'
    refine ⟨_ :: ts, s'', ?_, ?_, htokens.trans (congrArg (_ :: ·) htokens')⟩
    · intro t ht
      obtain rfl | ht := List.mem_cons.1 ht
      · rfl
      · exact hts t ht
    · have happend : before ++ '/' :: q :: (body ++ form.closer) ++ runes =
          before ++ '/' :: q :: (body ++ (form.closer ++ runes)) := by
        simp only [List.cons_append, List.append_assoc]
      rwa [happend] at hs''

namespace Scanner

variable {s : Scanner} {c : Cursor} {state : ScanState}

/-! ### What else a step can leave behind -/

/-- The tokens of a step come first in the scan that begins with it. -/
theorem mem_run_of_mem_step {t : Token} (hready : s.Ready state) (h : t ∈ (s.step state).tokens) :
    t ∈ (s.runFrom state).tokens := by
  obtain ⟨n, -, htokens⟩ := hready.exists_tokens_runFrom
  rw [htokens]
  exact List.mem_append_left _ h

/-- The tokens of the state to which a scan hands over belong to the scan. -/
theorem mem_run_of_goto {t : Token} (h : s.scanNeutral = s.goto c state)
    (ht : t ∈ ((s.moveTo c).step state).tokens) : t ∈ s.run.tokens := by
  obtain ⟨hready, htokens⟩ := ready_and_tokens_of_goto h
  rw [htokens]
  exact mem_run_of_mem_step hready ht

/-- The step leaves a token that is no comment. -/
def LeavesOther (step : ScanStep) : Prop :=
  ∃ t ∈ step.tokens, t.kind ≠ .comment

/-- A piece that is no comment is left. -/
theorem leavesOther_emit {kind : TokenKind} (h : kind ≠ .comment) : LeavesOther (s.emit c kind) :=
  ⟨_, List.mem_singleton_self _, h⟩

/-- So is a failure. -/
theorem leavesOther_fail (message : String) (span : Span) :
    LeavesOther (s.fail c message span) :=
  ⟨_, List.mem_singleton_self _, TokenKind.noConfusion⟩

/-- No word is a comment. -/
theorem ofWord_ne_comment (word : String) : TokenKind.ofWord word ≠ .comment := by
  unfold TokenKind.ofWord
  split
  · exact TokenKind.noConfusion
  · split_ifs
    · decide
    · decide

/-- Whether a state may end without a token other than a comment. -/
def isSilent : ScanState → Bool
  | .neutral | .blanks | .lineEnds | .lineComment | .blockComment => true
  | _ => false

/-- The other states always leave such a token. -/
theorem leavesOther_step (hsilent : isSilent state = false) : LeavesOther (s.step state) := by
  -- of the delimited pieces only strings and quotes are left
  have hkind : ∀ form, Encloses state form → form.kind ≠ .comment := by
    intro form encloses
    cases encloses with
    | string | quote => decide
    | lineComment | blockComment => cases hsilent
  have hdoes := does_step s state
  generalize s.step state = step at hdoes ⊢
  cases hdoes with
  | report collects | pass collects => cases collects <;> cases hsilent
  | closeKept encloses => exact leavesOther_emit (hkind _ encloses)
  | closeDropped encloses | cut encloses => exact ⟨_, List.mem_cons_self, hkind _ encloses⟩
  | cutEmpty => exact ⟨_, List.mem_singleton_self _, TokenKind.noConfusion⟩
  | char | sign | number => exact leavesOther_emit (by decide)
  | word => exact leavesOther_emit (ofWord_ne_comment _)
  | badChar | badNumber | badWord => exact leavesOther_fail ..
  | _ => cases hsilent

/-- A rune that is neither white space nor the start of a comment leaves some other token. -/
theorem exists_kind_ne_comment {r : Char} (hhead : s.cursor.head? = some r)
    (hwhite : isWhite r = false)
    (hslash : r = '/' → ∀ q, (s.cursor.past '/').head? = some q → q ≠ '/' ∧ q ≠ '*') :
    ∃ t ∈ s.run.tokens, t.kind ≠ .comment := by
  rw [isWhite, Bool.or_eq_false_iff] at hwhite
  have hrune : ∀ {q : Char}, s.cursor.head? = some q → r = q := fun hq =>
    Option.some.inj (hhead.symm.trans hq)
  -- either the first step leaves such a token, or it hands over to a state that is bound to
  have hstep : LeavesOther s.scanNeutral → ∃ t ∈ s.run.tokens, t.kind ≠ .comment := by
    rintro ⟨t, ht, hkind⟩
    exact ⟨t, mem_run_of_mem_step s.ready_neutral ht, hkind⟩
  have hgoto : ∀ {c : Cursor} {next : ScanState}, s.scanNeutral = s.goto c next →
      isSilent next = false → ∃ t ∈ s.run.tokens, t.kind ≠ .comment := by
    intro c next hscan hsilent
    obtain ⟨t, ht, hkind⟩ := leavesOther_step (s := s.moveTo c) hsilent
    exact ⟨t, mem_run_of_goto hscan ht, hkind⟩
  have hdoes := does_scanNeutral s
  generalize hscan : s.scanNeutral = step at hdoes hstep
  cases hdoes with
  | finish hnone | unclosed hnone =>
    rw [hhead] at hnone
    cases hnone
  | @beginRun q next hq hbegins =>
    obtain rfl := hrune hq
    refine hgoto hscan ?_
    cases next with
    | number | word => rfl
    | blanks => cases hwhite.1.symm.trans hbegins
    | lineEnds => cases hwhite.2.symm.trans hbegins
    | _ => cases hbegins
  | beginQuoted _ mark => cases mark <;> exact hgoto hscan rfl
  | beginChar => exact hgoto hscan rfl
  | beginComment hq hmark mark =>
    obtain ⟨hline, hblock⟩ := hslash (hrune hq) _ hmark
    cases mark with
    | line => exact absurd rfl hline
    | block => exact absurd rfl hblock
  | slash | opening | closing | literal => exact hstep (leavesOther_emit (by decide))
  | stray | unknown => exact hstep (leavesOther_fail ..)
  -- what remains is done in other states than the one between tokens
  | report collects | pass collects => cases collects
  | closeKept encloses | closeDropped encloses | cut encloses | cutEmpty encloses => cases encloses

end Scanner

/-- **Only separators leave nothing but comments.** -/
theorem Separator.of_tokens {s : Scanner} {before ahead : List Char} {depths : Bracket → Nat}
    (h : s.Stands before ahead depths) (hall : ∀ t ∈ s.run.tokens, t.kind = .comment) :
    Separator ahead := by
  -- on the number of runes ahead, for a comment takes many of them at once
  obtain ⟨n, hn⟩ : ∃ n, n = ahead.length := ⟨_, rfl⟩
  induction n using Nat.strongRecOn generalizing s before ahead with
  | _ n ih =>
    cases ahead with
    | nil => exact .nil
    | cons r ahead =>
      by_cases hwhite : isWhite r = true
      · obtain ⟨s', hs', htokens⟩ := h.white hwhite
        rw [htokens] at hall
        exact .white hwhite (ih _ (hn ▸ Nat.lt_succ_self _) hs' hall rfl)
      · by_cases hopens : r = '/' ∧ ∃ q rest, ahead = q :: rest ∧ (q = '/' ∨ q = '*')
        · obtain ⟨rfl, q, rest, rfl, hq⟩ := hopens
          obtain ⟨state, form, mark⟩ : ∃ state form, CommentMark q state form := by
            obtain rfl | rfl := hq
            · exact ⟨_, _, .line⟩
            · exact ⟨_, _, .block⟩
          have hcursor := h.holds.past.past
          obtain ⟨body, ahead, rfl, hclear⟩ | ⟨c, hseek⟩ :=
            hcursor.seek_cases mark.plain mark.closer_ne_nil
          · -- a closed comment, and a separator after it
            obtain ⟨s', hs', htokens⟩ := h.comment mark hclear
            rw [htokens] at hall
            refine .comment mark hclear (ih ahead.length ?_ hs' (fun t ht => ?_) rfl)
            · rw [hn]
              simp only [List.length_cons, List.length_append]
              omega
            · exact hall t (List.mem_cons_of_mem _ ht)
          · -- an unclosed comment, which leaves an end marker
            have hgoto := mark.scanNeutral_eq h.holds.head?_eq h.holds.past.head?_eq
            obtain ⟨t, ht, hkind⟩ := endMarker_mem_scanDelimited
              (s := s.moveTo ((s.cursor.past '/').past q)) hseek
            rw [← mark.step_eq] at ht
            have hcomment := hall t (mem_run_of_goto hgoto ht)
            rw [hkind] at hcomment
            cases hcomment
        · -- anything else leaves a token that is no comment
          obtain ⟨t, ht, hkind⟩ := exists_kind_ne_comment h.holds.head?_eq
            (Bool.not_eq_true _ ▸ hwhite) fun hr q hq => by
              subst hr
              rw [h.holds.past.head?_eq] at hq
              obtain ⟨rest, rfl⟩ : ∃ rest, ahead = q :: rest := List.head?_eq_some_iff.1 hq
              exact ⟨fun hq => hopens ⟨rfl, q, rest, rfl, .inl hq⟩,
                fun hq => hopens ⟨rfl, q, rest, rfl, .inr hq⟩⟩
          exact absurd (hall t ht) hkind

/-- So the texts whose only tokens are comments are the separators. -/
theorem Separator.iff_lex {text : String} :
    Separator text.toList ↔ ∀ t ∈ lex text, t.kind = .comment := by
  refine ⟨fun hsep => ?_, Separator.of_tokens (stands_ofSource text)⟩
  have h := stands_ofSource text
  rw [← List.append_nil text.toList] at h
  obtain ⟨ts, s, hts, hs, htokens⟩ := hsep.exists_tokens h
  rw [hs.tokens_eq_nil, List.append_nil] at htokens
  intro t ht
  exact hts t (htokens ▸ ht)

end DeclFront
