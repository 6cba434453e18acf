import DeclFront.Proofs.Scan.Concatenation
import DeclFront.Proofs.Scan.Form
import DeclFront.Proofs.Text.Munch

/-!
# What stands between delimiters

Strings, backtick quotes, comments and character constants end at their first real closer. This
module says without a scanner which closers are real, and so which contents come back from a scan as
they were written.

Where there are no escapes a content is anything in which the closer does not occur
(`Cursor.closes_iff_not_occurs`). That it does not occur across the end of the content either is due
to the closers: none of them overlaps a copy of itself (`Unbordered`). Where there are escapes, what
counts are the runes that no backslash hides (`exposed`).

The main statement, `Scanner.lex_enclosed`, has both directions for each form, and what becomes of a
piece whose closer does not come.
-/

namespace DeclFront

/-! ### Hidden runes -/

/-- The runes that no backslash hides: from the left on, a backslash and the rune that it hides are
left out. A backslash at the very end has nothing to hide, and stays; it is the only one that does
(`backslash_mem_exposed_iff`). -/
def exposed : List Char → List Char
  | [] => []
  | '\\' :: _ :: runes => exposed runes
  | r :: runes => r :: exposed runes

example : exposed ['a', '\\', '"', '\\', '\\', '"'] = ['a', '"'] := by decide

variable {r : Char} {body front back : List Char}

@[simp] theorem exposed_escape (q : Char) (runes : List Char) :
    exposed ('\\' :: q :: runes) = exposed runes := rfl

/-- A rune that is no backslash is exposed and hides nothing. -/
theorem exposed_cons (hr : r ≠ '\\') (runes : List Char) :
    exposed (r :: runes) = r :: exposed runes := by
  rw [exposed]
  exact fun q tail hslash => absurd hslash hr

/-- Runes are read one by one, but a backslash together with the rune that it hides. -/
theorem exposed_induction {P : List Char → Prop} (nil : P []) (lone : P ['\\'])
    (escape : ∀ q runes, P runes → P ('\\' :: q :: runes))
    (plain : ∀ r runes, r ≠ '\\' → P runes → P (r :: runes)) (runes : List Char) : P runes := by
  induction runes using exposed.induct with
  | case1 => exact nil
  | case2 q runes ih => exact escape q runes ih
  | case3 r runes hpair ih =>
    -- the third case of the definition allows a backslash at the end, and no other
    by_cases hr : r = '\\'
    · cases runes with
      | nil => exact hr ▸ lone
      | cons q runes => exact absurd rfl (hpair q runes hr)
    · exact plain r runes hr ih

/-- Behind a text that does not end in a lone backslash nothing is hidden by it. -/
theorem exposed_append (h : '\\' ∉ exposed front) (back : List Char) :
    exposed (front ++ back) = exposed front ++ exposed back := by
  induction front using exposed_induction with
  | nil => rfl
  | lone => exact absurd (List.mem_singleton_self _) h
  | escape q runes ih => exact ih h
  | plain r runes hr ih =>
    rw [exposed_cons hr, List.mem_cons, not_or] at h
    rw [List.cons_append, exposed_cons hr, exposed_cons hr, ih h.2, List.cons_append]

/-- The only backslash that can be exposed is a lone one at the end. -/
theorem backslash_mem_exposed_iff :
    '\\' ∈ exposed body ↔ ∃ front, body = front ++ ['\\'] ∧ '\\' ∉ exposed front := by
  refine ⟨fun h => ?_, ?_⟩
  · -- the part before the lone backslash is found along the reading
    induction body using exposed_induction with
    | nil => cases h
    | lone => exact ⟨[], rfl, List.not_mem_nil⟩
    | escape q runes ih =>
      obtain ⟨front, rfl, hfront⟩ := ih h
      exact ⟨'\\' :: q :: front, rfl, hfront⟩
    | plain r runes hr ih =>
      rw [exposed_cons hr] at h
      obtain ⟨front, rfl, hfront⟩ := ih ((List.mem_cons.1 h).resolve_left hr.symm)
      refine ⟨r :: front, rfl, ?_⟩
      rw [exposed_cons hr, List.mem_cons, not_or]
      exact ⟨hr.symm, hfront⟩
  · rintro ⟨front, rfl, hfront⟩
    rw [exposed_append hfront]
    exact List.mem_append_right _ (List.mem_singleton_self _)

/-! ### Closers that overlap no copy of themselves -/

/-- Nothing but the whole is both a beginning and an end of the runes. -/
def Unbordered (runes : List Char) : Prop :=
  ∀ v ∈ runes.inits, v <:+ runes → v = [] ∨ v = runes

/-- Such runes do not occur across the end of a text that they follow. -/
theorem Unbordered.prefix_of_prefix_append {closer : List Char} (h : Unbordered closer)
    (hfirst : closer <+: r :: (body ++ closer)) : closer <+: r :: body := by
  rw [← List.cons_append] at hfirst
  -- the closer stands before the end of the text, or across it
  obtain hshort | ⟨v, hv, hsplit⟩ := prefix_or_of_prefix_append hfirst
  · exact hshort
  · -- a part of it would stand at its beginning and at its end
    obtain rfl | rfl := h v ((List.mem_inits _ _).2 hv) ⟨r :: body, hsplit.symm⟩
    · rw [List.append_nil] at hsplit
      exact hsplit ▸ List.prefix_refl _
    · have hlength := congrArg List.length hsplit
      rw [List.length_append, List.length_cons] at hlength
      omega

/-- No closer of the language overlaps a copy of itself. -/
theorem Scanner.Encloses.unbordered {state : ScanState} {form : Delimited}
    (h : Encloses state form) : Unbordered form.closer := by
  cases h <;> (intro v hv; revert v; decide)

namespace Cursor

open Scanner

variable {c : Cursor} {before piece rest : List Char} {state : ScanState} {form : Delimited}

/-! ### Contents -/

/-- **Without escapes** a content is anything in which the closer does not occur. -/
theorem closes_iff_not_occurs (encloses : Encloses state form) (hplain : form.escapes = false) :
    Closes form body ↔ ¬ form.closer <:+: body := by
  induction body with
  | nil =>
    exact ⟨fun _ hinfix => encloses.closer_ne_nil (List.infix_nil.1 hinfix), fun _ => .nil⟩
  | cons r body ih =>
    rw [List.infix_cons_iff, not_or, ← ih]
    refine ⟨fun h => ?_, fun ⟨hfirst, h⟩ => .plain ?_ ?_ h⟩
    -- the closer does not begin at this rune, with the content behind it or with the closer as well
    · cases h with
      | plain _ hnot h =>
        refine ⟨fun hfirst => hnot (hfirst.trans ?_), h⟩
        exact List.prefix_append (r :: body) form.closer
      | escape hr =>
        rw [hplain, Bool.false_and] at hr
        cases hr
    · rw [hplain, Bool.false_and]
    · exact fun hprefix => hfirst (encloses.unbordered.prefix_of_prefix_append hprefix)

/-- Between backticks anything but a backtick may stand, -/
theorem closes_quote_iff : Closes .quote body ↔ '\x60' ∉ body :=
  (closes_iff_not_occurs .quote rfl).trans (not_congr (List.singleton_infix_iff _ _))

/-- in a line comment anything but a line feed, -/
theorem closes_lineComment_iff : Closes .lineComment body ↔ '\n' ∉ body :=
  (closes_iff_not_occurs .lineComment rfl).trans (not_congr (List.singleton_infix_iff _ _))

/-- and in a block comment anything without its two runes in a row. -/
theorem closes_blockComment_iff : Closes .blockComment body ↔ ¬ ['*', '/'] <:+: body :=
  closes_iff_not_occurs .blockComment rfl

/-- **With escapes** it is one in which no closer is exposed, and no lone backslash at the end. -/
theorem closes_string_iff :
    Closes .string body ↔ '"' ∉ exposed body ∧ '\\' ∉ exposed body := by
  induction body using exposed_induction with
  | nil => exact ⟨fun _ => ⟨List.not_mem_nil, List.not_mem_nil⟩, fun _ => .nil⟩
  -- a backslash at the end would hide the closer
  | lone =>
    refine ⟨fun h => ?_, fun h => absurd (List.mem_singleton_self _) h.2⟩
    cases h with
    | plain hr => cases hr
  -- the hidden rune may be a quote
  | escape q runes ih =>
    rw [exposed_escape, ← ih]
    refine ⟨fun h => ?_, fun h => .escape rfl ?_ h⟩
    · cases h with
      | plain hr => cases hr
      | escape _ _ h => exact h
    · intro hfirst
      cases (List.cons_prefix_cons.1 hfirst).1
  | plain r runes hr ih =>
    -- a rune by itself is exposed, so it must be no quote
    have hescape : (Delimited.string.escapes && r == '\\') = false := by
      rw [beq_eq_false_iff_ne.2 hr, Bool.and_false]
    rw [exposed_cons hr, List.mem_cons, List.mem_cons, not_or, not_or]
    refine ⟨fun h => ?_, fun ⟨⟨hquote, hclean⟩, _, hlone⟩ => ?_⟩
    · cases h with
      | plain _ hnot h =>
        obtain ⟨hclean, hlone⟩ := ih.1 h
        refine ⟨⟨?_, hclean⟩, hr.symm, hlone⟩
        rintro rfl
        exact hnot ⟨_, rfl⟩
      | escape hr' =>
        rw [hescape] at hr'
        cases hr'
    · refine .plain hescape (fun hfirst => ?_) (ih.2 ⟨hclean, hlone⟩)
      exact hquote (List.cons_prefix_cons.1 hfirst).1

/-- The content of a character constant is on one line, besides. -/
theorem charBody_of_exposed (hquote : '\'' ∉ exposed body) (hlone : '\\' ∉ exposed body)
    (hline : '\n' ∉ body) : CharBody (body ++ ['\'']) := by
  induction body using exposed_induction with
  | nil => exact .close
  | lone => exact absurd (List.mem_singleton_self _) hlone
  -- hidden or not, a line feed ends the constant
  | escape q runes ih =>
    rw [List.mem_cons, List.mem_cons, not_or, not_or] at hline
    exact .escape (Ne.symm hline.2.1) (ih hquote hlone hline.2.2)
  | plain r runes hr ih =>
    rw [exposed_cons hr, List.mem_cons, not_or] at hquote hlone
    rw [List.mem_cons, not_or] at hline
    exact .plain hr (Ne.symm hline.1) (Ne.symm hquote.1) (ih hquote.2 hlone.2 hline.2)

/-- A character constant that is read to its end has such a content. -/
theorem CharBody.exists_exposed {runes : List Char} (h : CharBody runes) :
    ∃ body, runes = body ++ ['\''] ∧ '\'' ∉ exposed body ∧ '\\' ∉ exposed body ∧ '\n' ∉ body := by
  induction h with
  | close => exact ⟨[], rfl, List.not_mem_nil, List.not_mem_nil, List.not_mem_nil⟩
  | @plain r runes hescape hline hquote _ ih =>
    obtain ⟨body, rfl, hbody⟩ := ih
    refine ⟨r :: body, rfl, ?_⟩
    rw [exposed_cons hescape, List.mem_cons, List.mem_cons, List.mem_cons, not_or, not_or, not_or]
    exact ⟨⟨hquote.symm, hbody.1⟩, ⟨hescape.symm, hbody.2.1⟩, hline.symm, hbody.2.2⟩
  | @escape q runes hline _ ih =>
    obtain ⟨body, rfl, hbody⟩ := ih
    refine ⟨'\\' :: q :: body, rfl, hbody.1, hbody.2.1, ?_⟩
    rw [List.mem_cons, List.mem_cons, not_or, not_or]
    exact ⟨by decide, hline.symm, hbody.2.2⟩

/-! ### Closers that do not come -/

/-- Where no content stands before a closer, the closer does not come. -/
theorem lacks_of_not_closes {ahead : List Char} (encloses : Encloses state form)
    (h : ∀ body rest, ahead = body ++ (form.closer ++ rest) → ¬ Closes form body) :
    Lacks form ahead := by
  obtain ⟨body, rest, hfinds⟩ | hlacks := finds_or_lacks form encloses.closer_ne_nil ahead
  · -- a new cursor would find it behind a content
    have hnew := Cursor.holds_ofSource (String.ofList ahead)
    rw [String.toList_ofList] at hnew
    obtain ⟨c', hseek, -⟩ := hfinds.holds (by rwa [List.append_nil])
    obtain ⟨body', rest', hsplit, hcloses⟩ := hnew.closes_of_seek encloses.closer_ne_nil hseek
    exact (h body' rest' hsplit hcloses).elim
  · exact hlacks

/-- In particular where it does not occur at all, -/
theorem lacks_of_not_occurs {ahead : List Char} (encloses : Encloses state form)
    (h : ¬ form.closer <:+: ahead) : Lacks form ahead := by
  refine lacks_of_not_closes encloses fun body rest hsplit _ => h ⟨body, rest, ?_⟩
  rw [hsplit, List.append_assoc]

/-- and in a string where every quote is hidden. -/
theorem lacks_string (h : '"' ∉ exposed body) : Lacks .string body := by
  refine lacks_of_not_closes .string fun front back hsplit hcloses => h ?_
  have hquote : exposed ('"' :: back) = '"' :: exposed back := exposed_cons (by decide) back
  rw [hsplit, exposed_append (closes_string_iff.1 hcloses).2]
  refine List.mem_append_right _ ?_
  show '"' ∈ exposed ('"' :: back)
  rw [hquote]
  exact List.mem_cons_self

/-- A character constant whose closing quote does not come before the end of its line, or before the
end of everything, is read up to there. -/
theorem Holds.readChar_open {stop : List Char} (hquote : '\'' ∉ exposed body) (hline : '\n' ∉ body)
    (hstop : stop = ['\n'] ∨ stop = [] ∧ rest = [])
    (h : c.Holds before piece (body ++ (stop ++ rest))) :
    ∃ c', c.readChar = (false, c') ∧ c'.Holds before (piece ++ (body ++ stop)) rest := by
  induction body using exposed_induction generalizing c piece with
  -- the content is read, and the line or the source ends here
  | nil =>
    obtain rfl | ⟨rfl, rfl⟩ := hstop
    · exact ⟨c.past '\n', readChar_of_head h.head?_eq (by decide), h.past⟩
    · refine ⟨c.settle, readChar_of_none h.head?_eq, ?_⟩
      rw [List.append_nil, List.append_nil]
      exact h.settle
  | lone =>
    obtain rfl | ⟨rfl, rfl⟩ := hstop
    · -- a line feed ends the constant even where it is hidden
      have hpast := h.past.past
      rw [List.append_assoc] at hpast
      exact ⟨_, readChar_of_escape h.head?_eq h.past.head?_eq, hpast⟩
    · exact ⟨_, readChar_of_escape_none h.head?_eq h.past.head?_eq, h.past.settle⟩
  | escape q runes ih =>
    rw [List.mem_cons, List.mem_cons, not_or, not_or] at hline
    obtain ⟨c', hread, hc'⟩ := ih hquote hline.2.2 h.past.past
    rw [List.append_assoc, List.append_assoc] at hc'
    refine ⟨c', (readChar_of_escape h.head?_eq h.past.head?_eq).trans ?_, hc'⟩
    rw [if_neg fun hq => hline.2.1 (beq_iff_eq.1 hq).symm]
    exact hread
  | plain r runes hr ih =>
    rw [exposed_cons hr, List.mem_cons, not_or] at hquote
    rw [List.mem_cons, not_or] at hline
    obtain ⟨c', hread, hc'⟩ := ih hquote.2 hline.2 h.past
    rw [List.append_assoc] at hc'
    refine ⟨c', (readChar_of_head h.head?_eq hr).trans ?_, hc'⟩
    rw [if_neg fun hq => hline.1 (beq_iff_eq.1 hq).symm,
      if_neg fun hq => hquote.1 (beq_iff_eq.1 hq).symm]
    exact hread

end Cursor

namespace Scanner

variable {front text more : String} {state : ScanState} {form : Delimited}

/-! ### Scanning one piece -/

/-- A piece with its delimiters, in front of a source that is scanned by itself. -/
theorem lex_of_closes (encloses : Encloses state form) (hcloses : Cursor.Closes form body)
    (hfront : front.toList = state.dropped ++ (state.collected ++ (body ++ form.closer)))
    (htext : text.toList =
      state.collected ++ (body ++ if form.keepsCloser then form.closer else [])) :
    lex (front ++ more) = ⟨form.kind, text,
        ⟨byteLength state.dropped, text.utf8ByteSize + byteLength state.dropped⟩⟩ ::
      (lex more).map (·.shift front.utf8ByteSize) := by
  -- the content is followed by its closer, with nothing read beyond it
  have hfinds := hcloses.finds []
  rw [List.append_nil] at hfinds
  have hstart := stands_ofSource (front ++ more)
  rw [String.toList_append, hfront, List.append_assoc, List.append_assoc] at hstart
  obtain ⟨s, hs, htokens⟩ := hstart.delimited encloses hfinds
  rw [List.nil_append, ← hfront] at hs
  rw [← htext, Token.ofPiece, String.ofList_toList] at htokens
  rw [lex_eq_cons hs htokens, utf8ByteSize_eq_byteLength, utf8ByteSize_eq_byteLength,
    Nat.add_comm]
  rfl

/-- A piece whose closer does not come. -/
theorem lex_of_lacks (encloses : Encloses state form) (hlacks : Cursor.Lacks form body)
    (hfront : front.toList = state.dropped ++ (state.collected ++ body))
    (htext : text.toList = state.collected ++ body) :
    lex front = (if text = "" then [] else [⟨form.kind, text,
        ⟨byteLength state.dropped, text.utf8ByteSize + byteLength state.dropped⟩⟩]) ++
      [⟨.endMarker, "", .point front.utf8ByteSize⟩] := by
  have hstart := stands_ofSource front
  rw [hfront] at hstart
  have htokens : lex front = _ := hstart.cutOff encloses hlacks
  -- an empty piece leaves no token
  have hempty : text.toList = [] ↔ text = "" := by
    rw [← String.toList_empty, String.toList_inj]
  have hsize : byteLength ([] ++ state.dropped) + byteLength text.toList = front.utf8ByteSize := by
    rw [utf8ByteSize_eq_byteLength, hfront, htext, ← byteLength_append]
    rfl
  rw [htokens, ← htext, hsize, Token.ofPiece, String.ofList_toList, ← utf8ByteSize_eq_byteLength,
    Nat.add_comm]
  simp only [hempty]
  rfl

/-- A character constant, in front of a source that is scanned by itself. -/
theorem lex_of_charBody (hbody : Cursor.CharBody body) (hfront : front.toList = '\'' :: body) :
    lex (front ++ more) = ⟨.char, front, ⟨0, front.utf8ByteSize⟩⟩ ::
      (lex more).map (·.shift front.utf8ByteSize) := by
  have hstart := stands_ofSource (front ++ more)
  rw [String.toList_append, hfront] at hstart
  obtain ⟨c, hread, hc⟩ := hbody.readChar hstart.holds.past
  obtain ⟨s, hs, htokens⟩ := hstart.char hread hc
  have hpiece : [] ++ ['\''] ++ body = front.toList := hfront.symm
  rw [hpiece, ofPiece_nil] at htokens
  rw [hpiece, List.nil_append] at hs
  rw [lex_eq_cons hs htokens, utf8ByteSize_eq_byteLength]

/-- A character constant whose closing quote does not come. -/
theorem lex_of_open_char {stop : List Char} (hquote : '\'' ∉ exposed body) (hline : '\n' ∉ body)
    (hstop : stop = ['\n'] ∨ stop = [] ∧ more = "")
    (hfront : front.toList = '\'' :: (body ++ stop)) :
    lex (front ++ more) =
      [⟨.error, "unterminated character constant", ⟨0, front.utf8ByteSize⟩⟩] := by
  have hstart := stands_ofSource (front ++ more)
  rw [String.toList_append, hfront, List.cons_append, List.append_assoc] at hstart
  -- the end of the source is one way for the quote not to come
  have hrest : stop = ['\n'] ∨ stop = [] ∧ more.toList = [] := by
    refine hstop.imp_right fun ⟨hstop, hmore⟩ => ⟨hstop, ?_⟩
    rw [hmore, String.toList_empty]
  obtain ⟨c, hread, hc⟩ := hstart.holds.past.readChar_open hquote hline hrest
  have hpiece : [] ++ ['\''] ++ (body ++ stop) = front.toList := hfront.symm
  rw [hpiece] at hc
  have htokens : lex (front ++ more) = _ := hstart.openChar hread
  rw [htokens, Cursor.span, hc.mark_eq, hc.offset_eq, byteLength_nil, Nat.zero_add,
    utf8ByteSize_eq_byteLength]

end Scanner

/-! ### The tokens of a scan -/

open Scanner

/-- What the texts of delimited tokens look like, by their kinds. -/
structure Enclosed (kind : TokenKind) (runes : List Char) : Prop where
  string : kind = .string → '"' ∉ exposed runes ∧ '\\' ∉ exposed runes
  quote : kind = .quote → '\x60' ∉ runes
  comment : kind = .comment →
    (∃ content, runes = '/' :: '/' :: content ∧ '\n' ∉ content) ∨
      ∃ content, runes = '/' :: '*' :: (content ++ ['*', '/']) ∧ ¬ ['*', '/'] <:+: content
  char : kind = .char → ∃ content, runes = '\'' :: (content ++ ['\'']) ∧
    '\'' ∉ exposed content ∧ '\\' ∉ exposed content ∧ '\n' ∉ content

/-- Other tokens have no delimiters. -/
theorem enclosed_of_ne {kind : TokenKind} {runes : List Char} (hstring : kind ≠ .string)
    (hquote : kind ≠ .quote) (hcomment : kind ≠ .comment) (hchar : kind ≠ .char) :
    Enclosed kind runes where
  string hkind := absurd hkind hstring
  quote hkind := absurd hkind hquote
  comment hkind := absurd hkind hcomment
  char hkind := absurd hkind hchar

/-- A token that is formed as its kind asks for has a text that shows it. -/
theorem Formed.enclosed {kind : TokenKind} {runes : List Char} (h : Formed kind runes) :
    Enclosed kind runes := by
  cases h with
  | word =>
    have hne : ∀ {kind : TokenKind}, kind.isVerbal = false →
        TokenKind.ofWord (String.ofList runes) ≠ kind := fun hkind => TokenKind.ofWord_ne hkind _
    exact enclosed_of_ne (hne rfl) (hne rfl) (hne rfl) (hne rfl)
  | opening | closing | mark | slash | sign | number => exact enclosed_of_ne nofun nofun nofun nofun
  | char hbody =>
    obtain ⟨content, rfl, hcontent⟩ := hbody.exists_exposed
    exact ⟨nofun, nofun, nofun, fun _ => ⟨content, rfl, hcontent⟩⟩
  -- what the state drops is not part of the text
  | @delimited state form body encloses hcloses =>
    cases encloses with
    | string =>
      refine ⟨fun _ => ?_, nofun, nofun, nofun⟩
      show '"' ∉ exposed (body ++ []) ∧ '\\' ∉ exposed (body ++ [])
      rw [List.append_nil]
      exact Cursor.closes_string_iff.1 hcloses
    | quote =>
      refine ⟨nofun, fun _ => ?_, nofun, nofun⟩
      show '\x60' ∉ body ++ []
      rw [List.append_nil]
      exact Cursor.closes_quote_iff.1 hcloses
    | lineComment =>
      refine ⟨nofun, nofun, fun _ => .inl ⟨body, ?_, ?_⟩, nofun⟩
      · exact congrArg ('/' :: '/' :: ·) (List.append_nil body)
      · exact Cursor.closes_lineComment_iff.1 hcloses
    | blockComment =>
      refine ⟨nofun, nofun, fun _ => .inr ⟨body, rfl, ?_⟩, nofun⟩
      exact Cursor.closes_blockComment_iff.1 hcloses

/-- **Every delimited token of a scan** has a text that looks like one, unless an end marker comes
directly after it. -/
theorem enclosed_of_lexWith {options : ScanOptions} {source : String} {us vs : List Token}
    {t : Token} (h : lexWith options source = us ++ t :: vs)
    (hnext : ∀ u, vs.head? = some u → u.kind ≠ .endMarker) : Enclosed t.kind t.text.toList := by
  -- white space and final tokens are of other kinds
  by_cases hplain : t.kind.isTrivia = false ∧ t.kind.isFinal = false
  · exact (formed_of_lexWith_eq_append h hplain.1 hplain.2 hnext).enclosed
  · have hother : ∀ kind : TokenKind, kind.isTrivia = false ∧ kind.isFinal = false →
        t.kind ≠ kind := fun kind hkind ht => hplain (ht ▸ hkind)
    exact enclosed_of_ne (hother _ ⟨rfl, rfl⟩) (hother _ ⟨rfl, rfl⟩) (hother _ ⟨rfl, rfl⟩)
      (hother _ ⟨rfl, rfl⟩)

namespace Scanner

/-! ### The forms one by one -/

variable {content : String}

/-- A text with an opener is not empty. -/
theorem append_ne_empty {opener : String} (content : String) (h : opener ≠ "") :
    opener ++ content ≠ "" := by
  intro hempty
  exact h (String.append_eq_empty_iff.1 hempty).1

/-- The runes of a text between two others. -/
theorem toList_between (opener content closer : String) :
    (opener ++ content ++ closer).toList =
      opener.toList ++ (content.toList ++ closer.toList) := by
  rw [String.toList_append, String.toList_append, List.append_assoc]

/-- Its size, behind an opener of a known size, -/
theorem utf8ByteSize_behind {opener : String} {n : Nat} (h : opener.utf8ByteSize = n)
    (content : String) : (opener ++ content).utf8ByteSize = content.utf8ByteSize + n := by
  rw [String.utf8ByteSize_append, h, Nat.add_comm]

/-- and between two delimiters. -/
theorem utf8ByteSize_between {opener closer : String} {m n : Nat} (h : opener.utf8ByteSize = m)
    (h' : closer.utf8ByteSize = n) (content : String) :
    (opener ++ content ++ closer).utf8ByteSize = content.utf8ByteSize + (m + n) := by
  rw [String.utf8ByteSize_append, utf8ByteSize_behind h, h', Nat.add_assoc]

/-- A string gives its content back. -/
theorem lex_string (hquote : '"' ∉ exposed content.toList) (hlone : '\\' ∉ exposed content.toList)
    (more : String) :
    lex ("\"" ++ content ++ "\"" ++ more) = ⟨.string, content, ⟨1, content.utf8ByteSize + 1⟩⟩ ::
      (lex more).map (·.shift (content.utf8ByteSize + 2)) := by
  have hcloses := Cursor.closes_string_iff.2 ⟨hquote, hlone⟩
  have hlex : lex ("\"" ++ content ++ "\"" ++ more) = _ :=
    lex_of_closes .string hcloses (toList_between _ _ _) (List.append_nil _).symm
  rwa [utf8ByteSize_between (m := 1) (n := 1) rfl rfl] at hlex

/-- So does a backtick quote. -/
theorem lex_quote (hquote : '\x60' ∉ content.toList) (more : String) :
    lex ("`" ++ content ++ "`" ++ more) = ⟨.quote, content, ⟨1, content.utf8ByteSize + 1⟩⟩ ::
      (lex more).map (·.shift (content.utf8ByteSize + 2)) := by
  have hlex : lex ("`" ++ content ++ "`" ++ more) = _ :=
    lex_of_closes .quote (Cursor.closes_quote_iff.2 hquote) (toList_between _ _ _)
      (List.append_nil _).symm
  rwa [utf8ByteSize_between (m := 1) (n := 1) rfl rfl] at hlex

/-- A line comment keeps its opener and loses the line feed. -/
theorem lex_lineComment (hline : '\n' ∉ content.toList) (more : String) :
    lex ("//" ++ content ++ "\n" ++ more) =
      ⟨.comment, "//" ++ content, ⟨0, content.utf8ByteSize + 2⟩⟩ ::
        (lex more).map (·.shift (content.utf8ByteSize + 3)) := by
  have htext : ("//" ++ content).toList = ['/', '/'] ++ (content.toList ++ []) := by
    rw [String.toList_append, List.append_nil]
    rfl
  have hlex : lex ("//" ++ content ++ "\n" ++ more) = _ :=
    lex_of_closes .lineComment (Cursor.closes_lineComment_iff.2 hline) (toList_between _ _ _) htext
  rwa [utf8ByteSize_between (m := 2) (n := 1) rfl rfl, utf8ByteSize_behind (n := 2) rfl] at hlex

/-- A block comment keeps both delimiters. -/
theorem lex_blockComment (hblock : ¬ ['*', '/'] <:+: content.toList) (more : String) :
    lex ("/*" ++ content ++ "*/" ++ more) =
      ⟨.comment, "/*" ++ content ++ "*/", ⟨0, content.utf8ByteSize + 4⟩⟩ ::
        (lex more).map (·.shift (content.utf8ByteSize + 4)) := by
  have hlex : lex ("/*" ++ content ++ "*/" ++ more) = _ :=
    lex_of_closes .blockComment (Cursor.closes_blockComment_iff.2 hblock) (toList_between _ _ _)
      (toList_between "/*" content "*/")
  rwa [utf8ByteSize_between (m := 2) (n := 2) rfl rfl] at hlex

/-- So does a character constant. -/
theorem lex_char (hquote : '\'' ∉ exposed content.toList) (hlone : '\\' ∉ exposed content.toList)
    (hline : '\n' ∉ content.toList) (more : String) :
    lex ("'" ++ content ++ "'" ++ more) =
      ⟨.char, "'" ++ content ++ "'", ⟨0, content.utf8ByteSize + 2⟩⟩ ::
        (lex more).map (·.shift (content.utf8ByteSize + 2)) := by
  have hbody := Cursor.charBody_of_exposed hquote hlone hline
  have hlex : lex ("'" ++ content ++ "'" ++ more) = _ :=
    lex_of_charBody hbody (toList_between _ _ _)
  rwa [utf8ByteSize_between (m := 1) (n := 1) rfl rfl] at hlex

/-- A string that is not closed is cut off at the end of the source, and is no token if nothing
stands in it. -/
theorem lex_open_string (hquote : '"' ∉ exposed content.toList) :
    lex ("\"" ++ content) =
      (if content = "" then [] else [⟨.string, content, ⟨1, content.utf8ByteSize + 1⟩⟩]) ++
        [⟨.endMarker, "", .point (content.utf8ByteSize + 1)⟩] := by
  have hlex : lex ("\"" ++ content) = _ :=
    lex_of_lacks .string (Cursor.lacks_string hquote) String.toList_append rfl
  rwa [utf8ByteSize_behind (n := 1) rfl] at hlex

/-- So is a backtick quote. -/
theorem lex_open_quote (hquote : '\x60' ∉ content.toList) :
    lex ("`" ++ content) =
      (if content = "" then [] else [⟨.quote, content, ⟨1, content.utf8ByteSize + 1⟩⟩]) ++
        [⟨.endMarker, "", .point (content.utf8ByteSize + 1)⟩] := by
  have hnone : ¬ ['\x60'] <:+: content.toList := by rwa [List.singleton_infix_iff]
  have hlex : lex ("`" ++ content) = _ :=
    lex_of_lacks .quote (Cursor.lacks_of_not_occurs .quote hnone)
      String.toList_append rfl
  rwa [utf8ByteSize_behind (n := 1) rfl] at hlex

/-- Both comments have their opener in their text, so there always is one. -/
theorem lex_open_comment {state : ScanState} {form : Delimited} {opener : String}
    (encloses : Encloses state form) (hkind : form.kind = .comment)
    (hopener : opener.toList = state.collected) (hdropped : state.dropped = [])
    (hsize : opener.utf8ByteSize = 2) (hnone : ¬ form.closer <:+: content.toList) :
    lex (opener ++ content) = [⟨.comment, opener ++ content, ⟨0, content.utf8ByteSize + 2⟩⟩,
      ⟨.endMarker, "", .point (content.utf8ByteSize + 2)⟩] := by
  have htext : (opener ++ content).toList = state.collected ++ content.toList := by
    rw [String.toList_append, hopener]
  have hlex : lex (opener ++ content) = _ :=
    lex_of_lacks encloses (Cursor.lacks_of_not_occurs encloses hnone)
      (htext.trans (hdropped ▸ rfl)) htext
  have hne : opener ≠ "" := by
    rintro rfl
    cases hsize
  rwa [if_neg (append_ne_empty content hne), hkind, hdropped, utf8ByteSize_behind hsize] at hlex

/-- The closing quote of a character constant has to come before the end of the line. -/
theorem lex_open_constant (hquote : '\'' ∉ exposed content.toList) (hline : '\n' ∉ content.toList)
    (more : String) :
    lex ("'" ++ content) =
        [⟨.error, "unterminated character constant", ⟨0, content.utf8ByteSize + 1⟩⟩] ∧
      lex ("'" ++ content ++ "\n" ++ more) =
        [⟨.error, "unterminated character constant", ⟨0, content.utf8ByteSize + 2⟩⟩] := by
  refine ⟨?_, ?_⟩
  · have htext : ("'" ++ content).toList = '\'' :: (content.toList ++ []) := by
      rw [String.toList_append, List.append_nil]
      rfl
    have hlex := lex_of_open_char hquote hline (.inr ⟨rfl, rfl⟩) htext
    rwa [String.append_empty, utf8ByteSize_behind (n := 1) rfl] at hlex
  · have hlex : lex ("'" ++ content ++ "\n" ++ more) = _ :=
      lex_of_open_char hquote hline (.inl rfl) (toList_between _ _ _)
    rwa [utf8ByteSize_between (m := 1) (n := 1) rfl rfl] at hlex

/-- **Each delimited form ends at its first real closer**, and gives its content back. Strings,
backtick quotes, line comments, block comments and character constants come in this order, each with
a content in which its closer does not stand, and with any source behind it. Then come the texts
that such tokens can have in any scan, and last the pieces whose closer does not come. -/
theorem lex_enclosed :
    (∀ content more : String, '"' ∉ exposed content.toList → '\\' ∉ exposed content.toList →
      lex ("\"" ++ content ++ "\"" ++ more) =
        ⟨.string, content, ⟨1, content.utf8ByteSize + 1⟩⟩ ::
          (lex more).map (·.shift (content.utf8ByteSize + 2))) ∧
    (∀ content more : String, '\x60' ∉ content.toList →
      lex ("`" ++ content ++ "`" ++ more) =
        ⟨.quote, content, ⟨1, content.utf8ByteSize + 1⟩⟩ ::
          (lex more).map (·.shift (content.utf8ByteSize + 2))) ∧
    (∀ content more : String, '\n' ∉ content.toList →
      lex ("//" ++ content ++ "\n" ++ more) =
        ⟨.comment, "//" ++ content, ⟨0, content.utf8ByteSize + 2⟩⟩ ::
          (lex more).map (·.shift (content.utf8ByteSize + 3))) ∧
    (∀ content more : String, ¬ ['*', '/'] <:+: content.toList →
      lex ("/*" ++ content ++ "*/" ++ more) =
        ⟨.comment, "/*" ++ content ++ "*/", ⟨0, content.utf8ByteSize + 4⟩⟩ ::
          (lex more).map (·.shift (content.utf8ByteSize + 4))) ∧
    (∀ content more : String, '\'' ∉ exposed content.toList → '\\' ∉ exposed content.toList →
      '\n' ∉ content.toList →
      lex ("'" ++ content ++ "'" ++ more) =
        ⟨.char, "'" ++ content ++ "'", ⟨0, content.utf8ByteSize + 2⟩⟩ ::
          (lex more).map (·.shift (content.utf8ByteSize + 2))) ∧
    (∀ (options : ScanOptions) (source : String) (us vs : List Token) (t : Token),
      lexWith options source = us ++ t :: vs →
      (∀ u, vs.head? = some u → u.kind ≠ .endMarker) → Enclosed t.kind t.text.toList) ∧
    (∀ content : String, '"' ∉ exposed content.toList →
      lex ("\"" ++ content) =
        (if content = "" then [] else [⟨.string, content, ⟨1, content.utf8ByteSize + 1⟩⟩]) ++
          [⟨.endMarker, "", .point (content.utf8ByteSize + 1)⟩]) ∧
    (∀ content : String, '\x60' ∉ content.toList →
      lex ("`" ++ content) =
        (if content = "" then [] else [⟨.quote, content, ⟨1, content.utf8ByteSize + 1⟩⟩]) ++
          [⟨.endMarker, "", .point (content.utf8ByteSize + 1)⟩]) ∧
    (∀ content : String, '\n' ∉ content.toList →
      lex ("//" ++ content) =
        [⟨.comment, "//" ++ content, ⟨0, content.utf8ByteSize + 2⟩⟩,
          ⟨.endMarker, "", .point (content.utf8ByteSize + 2)⟩]) ∧
    (∀ content : String, ¬ ['*', '/'] <:+: content.toList →
      lex ("/*" ++ content) =
        [⟨.comment, "/*" ++ content, ⟨0, content.utf8ByteSize + 2⟩⟩,
          ⟨.endMarker, "", .point (content.utf8ByteSize + 2)⟩]) ∧
    ∀ content more : String, '\'' ∉ exposed content.toList → '\n' ∉ content.toList →
      lex ("'" ++ content) =
          [⟨.error, "unterminated character constant", ⟨0, content.utf8ByteSize + 1⟩⟩] ∧
        lex ("'" ++ content ++ "\n" ++ more) =
          [⟨.error, "unterminated character constant", ⟨0, content.utf8ByteSize + 2⟩⟩] := by
  refine ⟨fun _ more hquote hlone => lex_string hquote hlone more,
    fun _ more hquote => lex_quote hquote more, fun _ more hline => lex_lineComment hline more,
    fun _ more hblock => lex_blockComment hblock more,
    fun _ more hquote hlone hline => lex_char hquote hlone hline more,
    fun _ _ _ _ _ => enclosed_of_lexWith, fun _ => lex_open_string, fun _ => lex_open_quote,
    fun content hline => ?_, fun content hblock => ?_,
    fun _ more hquote hline => lex_open_constant hquote hline more⟩
  -- the two comments that are cut off share a lemma, each with its closer
  · have hnone : ¬ ['\n'] <:+: content.toList := by rwa [List.singleton_infix_iff]
    exact lex_open_comment .lineComment rfl rfl rfl rfl hnone
  · exact lex_open_comment .blockComment rfl rfl rfl rfl hblock

/-- Closers that are hidden, or that only look like one, and a constant that they leave open. -/
theorem lex_enclosed_of_hidden_closers :
    lex ("\"" ++ "\\\"" ++ "\"" ++ "x") =
        [⟨.string, "\\\"", ⟨1, 3⟩⟩, ⟨.identifier, "x", ⟨4, 5⟩⟩] ∧
      lex ("`" ++ "\\" ++ "`" ++ "") = [⟨.quote, "\\", ⟨1, 2⟩⟩] ∧
      lex ("//" ++ "*/" ++ "\n" ++ "") = [⟨.comment, "//*/", ⟨0, 4⟩⟩] ∧
      lex ("/*" ++ "/*" ++ "*/" ++ "") = [⟨.comment, "/*/**/", ⟨0, 6⟩⟩] ∧
      lex ("'" ++ "\\'" ++ "'" ++ "") = [⟨.char, "'\\''", ⟨0, 4⟩⟩] ∧
      Enclosed .string "\\\\".toList ∧
      lex ("\"" ++ "\\\"") =
        [⟨.string, "\\\"", ⟨1, 3⟩⟩, ⟨.endMarker, "", .point 3⟩] ∧
      lex ("`" ++ "") = [⟨.endMarker, "", .point 1⟩] ∧
      lex ("//" ++ "") = [⟨.comment, "//", ⟨0, 2⟩⟩, ⟨.endMarker, "", .point 2⟩] ∧
      lex ("/*" ++ "/") = [⟨.comment, "/*/", ⟨0, 3⟩⟩, ⟨.endMarker, "", .point 3⟩] ∧
      lex ("'" ++ "\\" ++ "\n" ++ "'") =
        [⟨.error, "unterminated character constant", ⟨0, 3⟩⟩] := by
  obtain ⟨hstring, hquote, hline, hblock, hchar, hshape, hopenString, hopenQuote, hopenLine,
    hopenBlock, hconstant⟩ := lex_enclosed
  have hlex : lexWith ⟨true⟩ "\"\\\\\" " =
      [] ++ ⟨.string, "\\\\", ⟨1, 3⟩⟩ :: [⟨.space, " ", ⟨4, 5⟩⟩] := by decide +kernel
  refine ⟨?_, ?_, ?_, ?_, ?_, hshape _ _ _ _ _ hlex nofun, ?_, ?_, ?_, ?_, ?_⟩
  · exact (hstring "\\\"" "x" (by decide) (by decide)).trans (by decide +kernel)
  · exact (hquote "\\" "" (by decide)).trans (by decide +kernel)
  · exact (hline "*/" "" (by decide)).trans (by decide +kernel)
  · exact (hblock "/*" "" (by decide)).trans (by decide +kernel)
  · exact (hchar "\\'" "" (by decide) (by decide) (by decide)).trans (by decide +kernel)
  · exact (hopenString "\\\"" (by decide)).trans (by decide +kernel)
  · exact (hopenQuote "" (by decide)).trans (by decide +kernel)
  · exact (hopenLine "" (by decide)).trans (by decide +kernel)
  · exact (hopenBlock "/" (by decide)).trans (by decide +kernel)
  · exact (hconstant "\\" "'" (by decide) (by decide)).2.trans (by decide +kernel)

end Scanner

end DeclFront
