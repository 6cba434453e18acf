import DeclFront.Scan.Run
import Mathlib.Tactic.SplitIfs

/-!
# What a step of a scan does

A step either goes on without a token, emits a token and goes on, or emits its last token and halts.
This module says once what each state can do, so that no later proof opens the definition of a state
again: whatever is to hold of every step is shown by cases over `Scanner.Does`.

* `Scanner.tokens_emit`, `Scanner.result_emit` and their like are the tokens that a step emits and
  where it leads, while its tokens are taken;
* `Scanner.does_step` lists what a step can do, each with what the state has found out;
* `Scanner.tokens_drive_succ` splits the tokens of a chain of steps at its first, and
  `Scanner.forall_mem_drive` carries what every step keeps along the chain.
-/

namespace DeclFront

namespace Scanner

/-! ### How a step ends -/

section Endings

variable (s : Scanner) (c : Cursor) (kind : TokenKind) (next : ScanState)

/-- Going on emits nothing. -/
@[simp] theorem tokens_goto : (s.goto c next).tokens = [] := rfl

/-- Going on leads to the state that is named. -/
@[simp] theorem result_goto : (s.goto c next).result = (some next, s.moveTo c) := rfl

/-- A piece comes before the tokens of what follows it. -/
@[simp] theorem tokens_emitThen (after : Scanner → ScanStep) :
    (s.emitThen c kind after).tokens =
      ⟨kind, c.pending, c.span⟩ :: (after (s.moveTo c.discard)).tokens := rfl

/-- A piece leads where what follows it leads. -/
@[simp] theorem result_emitThen (after : Scanner → ScanStep) :
    (s.emitThen c kind after).result = (after (s.moveTo c.discard)).result := rfl

/-- A piece is one token. -/
@[simp] theorem tokens_emit : (s.emit c kind).tokens = [⟨kind, c.pending, c.span⟩] := rfl

/-- After a piece the scan is between tokens. -/
@[simp] theorem result_emit : (s.emit c kind).result = (some .neutral, s.moveTo c.discard) := rfl

/-- A failure is one token. -/
@[simp] theorem tokens_fail (message : String) (span : Span) :
    (s.fail c message span).tokens = [⟨.error, message, span⟩] := rfl

/-- A failure ends the scan. -/
@[simp] theorem result_fail (message : String) (span : Span) :
    (s.fail c message span).result = (none, s.moveTo c) := rfl

/-- An end marker is one token, without a text. -/
@[simp] theorem tokens_emitEnd :
    (s.emitEnd c).tokens = [⟨.endMarker, "", Span.point c.offset⟩] := rfl

/-- An end marker ends the scan. -/
@[simp] theorem result_emitEnd : (s.emitEnd c).result = (none, s.moveTo c) := rfl

end Endings

/-! ### The families of states -/

/-- The states that collect white space, with the kind that is reported and the runes that are
collected. -/
inductive Collects : ScanState → TokenKind → (Char → Bool) → Prop
  | blanks : Collects .blanks .space isBlank
  | lineEnds : Collects .lineEnds .endOfLine isLineEnd

/-- The states inside a delimited piece, with the form of the piece. -/
inductive Encloses : ScanState → Delimited → Prop
  | string : Encloses .string .string
  | quote : Encloses .quote .quote
  | lineComment : Encloses .lineComment .lineComment
  | blockComment : Encloses .blockComment .blockComment

/-- The quotes that are not part of the piece they open, with the states that they lead to. -/
inductive QuoteMark : Char → ScanState → Prop
  | string : QuoteMark '"' .string
  | quote : QuoteMark '\x60' .quote

/-- The runes that open a comment after a slash, with the states and forms that they lead to. -/
inductive CommentMark : Char → ScanState → Delimited → Prop
  | line : CommentMark '/' .lineComment .lineComment
  | block : CommentMark '*' .blockComment .blockComment

/-- Whether a rune begins the run that a state collects. The other states collect none. -/
def begins : ScanState → Char → Bool
  | .blanks, r => isBlank r
  | .lineEnds, r => isLineEnd r
  | .number, r => Cursor.isSign r || isDecimal r
  | .word, r => isWordRune r && !isDecimal r
  | _, _ => false

/-! ### What a step can do -/

/-- What the scanner `s` may do in a state, with what it has found out. -/
inductive Does (s : Scanner) : ScanState → ScanStep → Prop
  -- between tokens, at the end of the source
  | finish (hhead : s.cursor.head? = none) (hclosed : ¬ (s.parens ≠ 0 ∨ s.braces ≠ 0)) :
      Does s .neutral (.halt (none, s.moveTo s.cursor.settle))
  | unclosed (hhead : s.cursor.head? = none) (hopen : s.parens ≠ 0 ∨ s.braces ≠ 0) :
      Does s .neutral (s.fail s.cursor.settle "unclosed bracket" (Span.point s.cursor.offset))
  -- between tokens, at a rune
  | beginRun {r : Char} {next : ScanState} (hhead : s.cursor.head? = some r)
      (hr : begins next r = true) : Does s .neutral (s.goto s.cursor.settle next)
  | beginQuoted {r : Char} {next : ScanState} (hhead : s.cursor.head? = some r)
      (mark : QuoteMark r next) : Does s .neutral (s.goto (s.cursor.past r).discard next)
  | beginChar (hhead : s.cursor.head? = some '\'') :
      Does s .neutral (s.goto (s.cursor.past '\'') .char)
  | beginComment {q : Char} {next : ScanState} {form : Delimited}
      (hhead : s.cursor.head? = some '/') (hmark : (s.cursor.past '/').head? = some q)
      (mark : CommentMark q next form) :
      Does s .neutral (s.goto ((s.cursor.past '/').past q) next)
  | slash (hhead : s.cursor.head? = some '/')
      (hmark : ∀ q, (s.cursor.past '/').head? = some q → q ≠ '/' ∧ q ≠ '*') :
      Does s .neutral (s.emit (s.cursor.past '/') .literal)
  | opening {b : Bracket} (hhead : s.cursor.head? = some b.opening) : Does s .neutral
      ((s.setDepth b (s.depth b + 1)).emit (s.cursor.past b.opening) .bracketOpen)
  | closing {b : Bracket} {n : Nat} (hhead : s.cursor.head? = some b.closing)
      (hdepth : s.depth b = n + 1) :
      Does s .neutral ((s.setDepth b n).emit (s.cursor.past b.closing) .bracketClose)
  | stray {b : Bracket} (hhead : s.cursor.head? = some b.closing) (hdepth : s.depth b = 0) :
      Does s .neutral (s.fail (s.cursor.past b.closing)
        ("unexpected character " ++ nameRune b.closing) (s.cursor.past b.closing).span)
  | literal {r : Char} (hhead : s.cursor.head? = some r) (hr : isGraphic r = true) :
      Does s .neutral (s.emit (s.cursor.past r) .literal)
  | unknown {r : Char} (hhead : s.cursor.head? = some r) (hr : isGraphic r = false) :
      Does s .neutral (s.fail (s.cursor.past r) ("unrecognized character " ++ nameRune r)
        (s.cursor.past r).span)
  -- in white space
  | report {state : ScanState} {kind : TokenKind} {p : Char → Bool} (h : Collects state kind p)
      (hkeeps : s.options.keepTrivia = true) : Does s state (s.emit (s.cursor.skip p) kind)
  | pass {state : ScanState} {kind : TokenKind} {p : Char → Bool} (h : Collects state kind p)
      (hkeeps : s.options.keepTrivia = false) :
      Does s state (s.goto (s.cursor.skip p).discard .neutral)
  -- in a delimited piece
  | closeKept {state : ScanState} {form : Delimited} {c : Cursor} (h : Encloses state form)
      (hseek : s.cursor.seek form = (true, c)) (hkeeps : form.keepsCloser = true) :
      Does s state (s.emit (c.jump (byteLength form.closer)) form.kind)
  | closeDropped {state : ScanState} {form : Delimited} {c : Cursor} (h : Encloses state form)
      (hseek : s.cursor.seek form = (true, c)) (hkeeps : form.keepsCloser = false) :
      Does s state (s.emitThen c form.kind fun s =>
        s.goto (s.cursor.jump (byteLength form.closer)).discard .neutral)
  | cut {state : ScanState} {form : Delimited} {c : Cursor} (h : Encloses state form)
      (hseek : s.cursor.seek form = (false, c)) (hpending : c.hasPending = true) :
      Does s state (s.emitThen c form.kind fun s => s.emitEnd s.cursor)
  | cutEmpty {state : ScanState} {form : Delimited} {c : Cursor} (h : Encloses state form)
      (hseek : s.cursor.seek form = (false, c)) (hpending : c.hasPending = false) :
      Does s state (s.emitEnd c)
  -- in a character constant
  | char {c : Cursor} (hread : s.cursor.readChar = (true, c)) : Does s .char (s.emit c .char)
  | badChar {c : Cursor} (hread : s.cursor.readChar = (false, c)) :
      Does s .char (s.fail c "unterminated character constant" c.span)
  -- in a number
  | sign {c : Cursor} (haccept : s.cursor.accept Cursor.isSign = (true, c))
      (hhead : c.head?.any continuesSign = false) : Does s .number (s.emit c .literal)
  | number {signed : Bool} {c : Cursor} (haccept : s.cursor.accept Cursor.isSign = (signed, c))
      (hhead : ∀ r, c.readMagnitude.head? = some r → isWordRune r = false) :
      Does s .number (s.emit c.readMagnitude .number)
  | badNumber {signed : Bool} {c : Cursor} {r : Char}
      (haccept : s.cursor.accept Cursor.isSign = (signed, c))
      (hhead : c.readMagnitude.head? = some r) (hr : isWordRune r = true) :
      Does s .number (s.fail (c.readMagnitude.past r)
        ("bad number syntax: " ++ quoteText (c.readMagnitude.past r).pending)
        (c.readMagnitude.past r).span)
  -- in a word
  | word (hhead : ∀ r, (s.cursor.skip continuesWord).head? = some r → endsWord r = true) :
      Does s .word (s.emit (s.cursor.skip continuesWord)
        (.ofWord (s.cursor.skip continuesWord).pending))
  | badWord {r : Char} (hhead : (s.cursor.skip continuesWord).head? = some r)
      (hr : endsWord r = false) :
      Does s .word (s.fail (s.cursor.skip continuesWord) ("unexpected character " ++ nameRune r)
        ⟨(s.cursor.skip continuesWord).offset,
          (s.cursor.skip continuesWord).offset + r.utf8Size⟩)

section Does

variable {s : Scanner} {r : Char}

/-- A slash begins a comment, or stands for itself. -/
theorem does_scanSlash (hhead : s.cursor.head? = some '/') :
    Does s .neutral (s.scanSlash (s.cursor.past '/')) := by
  unfold scanSlash
  split
  · next hmark => exact .beginComment hhead hmark .line
  · next hmark => exact .beginComment hhead hmark .block
  · next hline hblock =>
    refine .slash hhead fun q hq => ⟨?_, ?_⟩
    · rintro rfl
      exact hline hq
    · rintro rfl
      exact hblock hq

/-- A closing bracket is stray unless one of its pair is open. -/
theorem does_scanClosing {b : Bracket} (hhead : s.cursor.head? = some b.closing) :
    Does s .neutral (s.scanClosing (s.cursor.past b.closing) b) := by
  unfold scanClosing
  split
  · next hdepth => exact .stray hhead hdepth
  · next n hdepth => exact .closing hhead hdepth

/-- What begins at a rune: the tests are made in this order, and each leaves the rest to those after
it. -/
theorem does_scanNeutral_of_head (hhead : s.cursor.head? = some r) :
    Does s .neutral s.scanNeutral := by
  rw [scanNeutral, hhead]
  dsimp only
  by_cases hlineEnd : isLineEnd r = true
  · rw [if_pos hlineEnd]
    exact .beginRun hhead hlineEnd
  rw [if_neg hlineEnd]
  by_cases hblank : isBlank r = true
  · rw [if_pos hblank]
    exact .beginRun hhead hblank
  rw [if_neg hblank]
  by_cases hstring : r = '"'
  · rw [if_pos hstring]
    exact .beginQuoted hhead (hstring ▸ .string)
  rw [if_neg hstring]
  by_cases hquote : r = '\x60'
  · rw [if_pos hquote]
    exact .beginQuoted hhead (hquote ▸ .quote)
  rw [if_neg hquote]
  by_cases hchar : r = '\''
  · rw [if_pos hchar]
    subst hchar
    exact .beginChar hhead
  rw [if_neg hchar]
  by_cases hslash : r = '/'
  · rw [if_pos hslash]
    subst hslash
    exact does_scanSlash hhead
  rw [if_neg hslash]
  by_cases hnumber : (Cursor.isSign r || isDecimal r) = true
  · rw [if_pos hnumber]
    exact .beginRun hhead hnumber
  rw [if_neg hnumber]
  by_cases hword : isWordRune r = true
  · -- a digit is a word rune too, but it was caught by the test before
    rw [if_pos hword]
    refine .beginRun hhead ?_
    rw [Bool.or_eq_true, not_or, Bool.not_eq_true, Bool.not_eq_true] at hnumber
    rw [begins, hword, hnumber.2]
    rfl
  rw [if_neg hword]
  by_cases hparen : r = '('
  · rw [if_pos hparen]
    subst hparen
    exact .opening (b := .paren) hhead
  rw [if_neg hparen]
  by_cases hbrace : r = '\x7b'
  · rw [if_pos hbrace]
    subst hbrace
    exact .opening (b := .brace) hhead
  rw [if_neg hbrace]
  by_cases hparen : r = ')'
  · rw [if_pos hparen]
    subst hparen
    exact does_scanClosing (b := .paren) hhead
  rw [if_neg hparen]
  by_cases hbrace : r = '\x7d'
  · rw [if_pos hbrace]
    subst hbrace
    exact does_scanClosing (b := .brace) hhead
  rw [if_neg hbrace]
  -- whatever else can be seen stands for itself
  by_cases hgraphic : isGraphic r = true
  · rw [if_pos hgraphic]
    exact .literal hhead hgraphic
  rw [if_neg hgraphic]
  exact .unknown hhead (Bool.not_eq_true _ ▸ hgraphic)

/-- Between tokens the scan ends, or something begins. -/
theorem does_scanNeutral (s : Scanner) : Does s .neutral s.scanNeutral := by
  cases hhead : s.cursor.head? with
  | none =>
    rw [scanNeutral, hhead]
    dsimp only
    split_ifs with hopen
    · exact .unclosed hhead hopen
    · exact .finish hhead hopen
  | some r => exact does_scanNeutral_of_head hhead

/-- White space is reported or passed over. -/
theorem does_scanTrivia {state : ScanState} {kind : TokenKind} {p : Char → Bool}
    (h : Collects state kind p) (s : Scanner) : Does s state (s.scanTrivia kind p) := by
  unfold scanTrivia
  dsimp only
  split_ifs with hkeeps
  · exact .report h hkeeps
  · exact .pass h (Bool.not_eq_true _ ▸ hkeeps)

/-- A delimited piece is closed or cut off, with a token or without one. -/
theorem does_scanDelimited {state : ScanState} {form : Delimited} (h : Encloses state form)
    (s : Scanner) : Does s state (s.scanDelimited form) := by
  unfold scanDelimited
  split
  · next c hseek =>
    dsimp only
    split_ifs with hkeeps
    · exact .closeKept h hseek hkeeps
    · exact .closeDropped h hseek (Bool.not_eq_true _ ▸ hkeeps)
  · next c hseek =>
    split_ifs with hpending
    · exact .cut h hseek hpending
    · exact .cutEmpty h hseek (Bool.not_eq_true _ ▸ hpending)

/-- A character constant is closed or bad. -/
theorem does_scanChar (s : Scanner) : Does s .char s.scanChar := by
  unfold scanChar
  split
  · next c hread => exact .char hread
  · next c hread => exact .badChar hread

/-- A number is a lone sign, a number, or spoiled by a word rune. -/
theorem does_scanNumber (s : Scanner) : Does s .number s.scanNumber := by
  -- a lone sign is tested for before any digit is read
  unfold scanNumber
  cases haccept : s.cursor.accept Cursor.isSign with
  | mk signed c =>
    dsimp only
    split_ifs with hsign
    · rw [Bool.and_eq_true, Bool.not_eq_true'] at hsign
      exact .sign (hsign.1 ▸ haccept) hsign.2
    · split
      · next r hhead =>
        split_ifs with hr
        · exact .badNumber haccept hhead hr
        · refine .number haccept fun q hq => ?_
          obtain rfl : r = q := Option.some.inj (hhead.symm.trans hq)
          exact Bool.not_eq_true _ ▸ hr
      · next hhead =>
        refine .number haccept fun q hq => ?_
        rw [hhead] at hq
        cases hq

/-- A word ends where it may, or is bad. -/
theorem does_scanWord (s : Scanner) : Does s .word s.scanWord := by
  unfold scanWord
  dsimp only
  split
  · next hhead =>
    refine .word fun q hq => ?_
    rw [hhead] at hq
    cases hq
  · next r hhead =>
    split_ifs with hr
    · refine .word fun q hq => ?_
      obtain rfl : r = q := Option.some.inj (hhead.symm.trans hq)
      exact hr
    · exact .badWord hhead (Bool.not_eq_true _ ▸ hr)

/-- **What a step can do.** -/
theorem does_step (s : Scanner) (state : ScanState) : Does s state (s.step state) := by
  cases state with
  | neutral => exact does_scanNeutral s
  | blanks => exact does_scanTrivia .blanks s
  | lineEnds => exact does_scanTrivia .lineEnds s
  | string => exact does_scanDelimited .string s
  | quote => exact does_scanDelimited .quote s
  | char => exact does_scanChar s
  | lineComment => exact does_scanDelimited .lineComment s
  | blockComment => exact does_scanDelimited .blockComment s
  | number => exact does_scanNumber s
  | word => exact does_scanWord s

end Does

/-! ### Chains of steps -/

variable (s : Scanner)

/-- Without a state the chain has ended. -/
@[simp] theorem drive_none (bound : Nat) : drive bound s none = .halt s := by
  cases bound <;> rfl

/-- The tokens of a chain of steps are those of its first step, and then those of the rest. -/
theorem tokens_drive_succ (bound : Nat) (state : ScanState) :
    (drive (bound + 1) s (some state)).tokens = (s.step state).tokens ++
      (drive bound (s.step state).result.2 (s.step state).result.1).tokens :=
  Emitter.tokens_bind ..

/-- **What every step keeps, a chain of steps keeps.** Where the invariant `I` holds, the tokens of
a step have `P`, and `I` holds again wherever the step leads; so all tokens of a chain have `P`. -/
theorem forall_mem_drive {I : Scanner → ScanState → Prop} {P : Token → Prop}
    (hkeeps : ∀ s state, I s state → (∀ t ∈ (s.step state).tokens, P t) ∧
      ∀ next s', (s.step state).result = (some next, s') → I s' next)
    (bound : Nat) {s : Scanner} {state : ScanState} (h : I s state) :
    ∀ t ∈ (drive bound s (some state)).tokens, P t := by
  induction bound generalizing s state with
  | zero =>
    intro t ht
    cases ht
  | succ bound ih =>
    intro t ht
    rw [tokens_drive_succ] at ht
    obtain ⟨htokens, hnext⟩ := hkeeps s state h
    obtain ht | ht := List.mem_append.1 ht
    · exact htokens t ht
    · cases hresult : (s.step state).result with
      | mk next s' =>
        rw [hresult] at ht
        cases next with
        | none =>
          rw [drive_none] at ht
          cases ht
        | some next => exact ih (hnext next s' hresult) t ht

end Scanner

end DeclFront
