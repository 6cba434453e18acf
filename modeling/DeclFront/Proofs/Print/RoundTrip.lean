import DeclFront.Proofs.Parse.Acceptance
import DeclFront.Proofs.Print.Lexeme
import DeclFront.Proofs.Scan.Spelling

/-!
# Printing and parsing

Which trees a source can have, and how a tree can be written down.

A tree is *well-formed* if its parts are what a scan can find: every keyword declares a function,
every name is a word that is not reserved, every parameter has a type of the vocabulary, and no more
bodies are open at once than the parser allows. A *printing* of a tree is any source that writes
down its lexemes, with any separators between them.

* `Scope.proper_of_funcs`: a derivation from words that a scan found gives a proper tree, since
  names come from identifiers and types from the words for types;
* `Scope.scannable_lexemes` and `Scope.funcs_of_keys`: the lexemes of a proper tree can be scanned,
  and the tokens that come of them derive the tree;
* `Scope.ofSource_eq_ok_iff_wellFormed`: so the trees that sources have are the well-formed ones,
  and every printing of such a tree parses back to it.
-/

namespace DeclFront

open Scanner Grammar

/-! ### Well-formed trees -/

/-- The text is a word and not reserved. -/
def IsName (name : String) : Prop :=
  isWord name.toList = true ∧ TokenKind.ofWord name = .identifier

/-- The parameter has a name and a type of the vocabulary. -/
structure Parameter.Proper (p : Parameter) : Prop where
  name : IsName p.name
  type : p.type ∈ Category.typeName.spellings

mutual

/-- The declaration and all those in its body have the right keyword, names and types. -/
def FunctionDecl.Proper : FunctionDecl → Prop
  | ⟨keyword, name, arguments, body⟩ =>
    keyword = .keyword .function ∧ IsName name ∧ (∀ p ∈ arguments, p.Proper) ∧ Scope.Proper body

/-- All declarations of the scope have the right keyword, names and types. -/
def Scope.Proper : List FunctionDecl → Prop
  | [] => True
  | d :: ds => d.Proper ∧ Scope.Proper ds

end

/-- A tree that some source can have. -/
structure Scope.WellFormed (T : Scope) : Prop where
  proper : Scope.Proper T
  nesting_le : Scope.nesting T ≤ 128

/-! ### Trees of scanned tokens -/

/-- An identifier that a scan has found is a name. -/
theorem isName_of_spelled {t : Token} (h : t.Spelled) (hkind : t.kind = .identifier) :
    IsName t.text := by
  obtain ⟨hword, hof⟩ := h (by rw [hkind]; rfl)
  exact ⟨hword, hof.symm.trans hkind⟩

/-- A keyword that a scan has found has one of the spellings of its category. -/
theorem mem_spellings_of_spelled {t : Token} {category : Category} (h : t.Spelled)
    (hkind : t.kind = .keyword category) : t.text ∈ category.spellings := by
  obtain ⟨-, hof⟩ := h (by rw [hkind]; rfl)
  rw [hkind, TokenKind.ofWord] at hof
  cases hcategory : Category.ofSpelling? t.text with
  | none =>
    -- a word without a category is a truth value or an identifier
    rw [hcategory] at hof
    dsimp only at hof
    split_ifs at hof
  | some found =>
    rw [hcategory] at hof
    obtain rfl : category = found := TokenKind.keyword.inj hof
    exact Category.mem_spellings_of_ofSpelling? hcategory

/-- So the parameter that is made of two of its tokens is proper, -/
theorem Parameter.proper_of_param {ts : List Token} {p : Parameter} (h : Param ts p)
    (hts : ∀ t ∈ ts, t.Spelled) : p.Proper := by
  cases h with
  | @mk name type hname htype =>
    have hsecond : type ∈ [name, type] := List.mem_cons_of_mem _ (List.mem_singleton_self _)
    exact ⟨isName_of_spelled (hts name List.mem_cons_self) hname,
      mem_spellings_of_spelled (hts type hsecond) htype⟩

/-- and those behind it are as well. -/
theorem Parameter.proper_of_moreParams {ts : List Token} {ps : List Parameter}
    (h : MoreParams ts ps) (hts : ∀ t ∈ ts, t.Spelled) : ∀ p ∈ ps, p.Proper := by
  induction h with
  | nil =>
    intro p hp
    cases hp
  | cons hcomma head tail ih =>
    rw [List.forall_mem_cons, List.forall_mem_append] at hts
    rw [List.forall_mem_cons]
    exact ⟨proper_of_param head hts.2.1, ih hts.2.2⟩

/-- A trailing comma makes no difference to them. -/
theorem Parameter.proper_of_params {ts : List Token} {ps : List Parameter} (h : Params ts ps)
    (hts : ∀ t ∈ ts, t.Spelled) : ∀ p ∈ ps, p.Proper := by
  cases h with
  | empty =>
    intro p hp
    cases hp
  | list head tail trailing =>
    rw [List.forall_mem_append, List.forall_mem_append] at hts
    rw [List.forall_mem_cons]
    exact ⟨proper_of_param head hts.1, proper_of_moreParams tail hts.2.1⟩

mutual

/-- The name of a declaration is an identifier, and its keyword is fixed by the grammar. -/
theorem FunctionDecl.proper_of_func : ∀ (d : FunctionDecl) {ts : List Token}, Func ts d →
    (∀ t ∈ ts, t.Spelled) → d.Proper
  | ⟨_, _, _, body⟩, _, .mk hkeyword hname hlparen params hrparen hlbrace funcs marker hrbrace,
      hts => by
    simp only [List.forall_mem_cons, List.forall_mem_append] at hts
    obtain ⟨-, hnamed, -, hparams, -, -, hbody, -, -⟩ := hts
    rw [FunctionDecl.Proper]
    exact ⟨rfl, isName_of_spelled hnamed hname, Parameter.proper_of_params params hparams,
      Scope.proper_of_funcs body funcs hbody⟩

/-- **What a scan finds has right names and types.** -/
theorem Scope.proper_of_funcs : ∀ (T : List FunctionDecl) {ts : List Token}, Funcs ts T →
    (∀ t ∈ ts, t.Spelled) → Scope.Proper T
  | [], _, _, _ => by
    rw [Scope.Proper]
    trivial
  | d :: ds, _, .cons head tail, hts => by
    rw [List.forall_mem_append] at hts
    rw [Scope.Proper]
    exact ⟨FunctionDecl.proper_of_func d head hts.1, Scope.proper_of_funcs ds tail hts.2⟩

end

/-- A source may break off behind its last declaration. -/
theorem Scope.proper_of_prog {ts : List Token} {T : Scope} (h : Prog ts T)
    (hts : ∀ t ∈ ts, t.Spelled) : Scope.Proper T := by
  cases h with
  | complete funcs => exact Scope.proper_of_funcs T funcs hts
  | cut funcs hmarker =>
    -- what stands behind the end marker is no part of the tree
    rw [List.forall_mem_append] at hts
    exact Scope.proper_of_funcs T funcs hts.1

/-! ### The lexemes of a tree -/

/-- A parameter is written as its name and its type. -/
def Parameter.lexemes (p : Parameter) : List Lexeme :=
  [.word p.name, .word p.type]

/-- Parameters after the first are written with a comma before each. -/
def Parameter.moreLexemes (ps : List Parameter) : List Lexeme :=
  ps.flatMap fun p => .comma :: p.lexemes

/-- Parameters are written with commas between them. -/
def Parameter.listLexemes : List Parameter → List Lexeme
  | [] => []
  | p :: ps => p.lexemes ++ Parameter.moreLexemes ps

mutual

/-- How a declaration is written. -/
def FunctionDecl.lexemes : FunctionDecl → List Lexeme
  | ⟨_, name, arguments, body⟩ =>
    .word "func" :: .word name :: .opening .paren :: (Parameter.listLexemes arguments ++
      .closing .paren :: .opening .brace :: (Scope.lexemes body ++ [.closing .brace]))

/-- How a scope is written. -/
def Scope.lexemes : List FunctionDecl → List Lexeme
  | [] => []
  | d :: ds => d.lexemes ++ Scope.lexemes ds

end

/-- The source writes down the tree, with separators of any sort between its lexemes and before
them. -/
def Scope.Prints (T : Scope) (source : String) : Prop :=
  ∃ lead text, source = lead ++ text ∧ (∀ t ∈ lex lead, t.kind = .comment) ∧
    Lexeme.Writes (Scope.lexemes T) text

/-- The spellings of types are words, and reserved for types. -/
theorem isWord_of_mem_spellings {type : String} (h : type ∈ Category.typeName.spellings) :
    isWord type.toList = true ∧ TokenKind.ofWord type = .keyword .typeName := by
  have hall : ∀ type ∈ Category.typeName.spellings,
      isWord type.toList = true ∧ TokenKind.ofWord type = .keyword .typeName := by decide
  exact hall type h

/-! ### The lexemes of a tree can be scanned -/

section Scannable

open Lexeme

variable {depths : Bracket → Nat} {ls : List Lexeme}

/-- A pair of brackets leaves nothing open. -/
theorem Lexeme.scannable_closing {b : Bracket} (h : Scannable depths ls) :
    Scannable (Function.update depths b (depths b + 1)) (.closing b :: ls) := by
  refine ⟨depths b, Function.update_self .., ?_⟩
  rwa [Function.update_idem, Function.update_eq_self]

/-- Behind the type, whatever comes next must be able to follow a word. -/
theorem Parameter.scannable_lexemes {p : Parameter} (hp : p.Proper) (h : Scannable depths ls)
    (hfollows : ls.head?.all followsWord = true) : Scannable depths (p.lexemes ++ ls) :=
  ⟨hp.name.1, rfl, (isWord_of_mem_spellings hp.type).1, hfollows, h⟩

/-- Further parameters begin with a comma, which can. -/
theorem Parameter.scannable_moreLexemes {ps : List Parameter} (hps : ∀ p ∈ ps, p.Proper)
    (h : Scannable depths ls) (hfollows : ls.head?.all followsWord = true) :
    Scannable depths (Parameter.moreLexemes ps ++ ls) ∧
      (Parameter.moreLexemes ps ++ ls).head?.all followsWord = true := by
  induction ps with
  | nil => exact ⟨h, hfollows⟩
  | cons p ps ih =>
    rw [List.forall_mem_cons] at hps
    obtain ⟨hrest, hnext⟩ := ih hps.2
    rw [Parameter.moreLexemes, List.flatMap_cons, List.append_assoc]
    exact ⟨Parameter.scannable_lexemes hps.1 hrest hnext, rfl⟩

/-- So a list of parameters can be scanned in front of what closes it. -/
theorem Parameter.scannable_listLexemes {ps : List Parameter} (hps : ∀ p ∈ ps, p.Proper)
    (h : Scannable depths ls) (hfollows : ls.head?.all followsWord = true) :
    Scannable depths (Parameter.listLexemes ps ++ ls) := by
  cases ps with
  | nil => exact h
  | cons p ps =>
    rw [List.forall_mem_cons] at hps
    obtain ⟨hrest, hnext⟩ := Parameter.scannable_moreLexemes hps.2 h hfollows
    rw [Parameter.listLexemes, List.append_assoc]
    exact Parameter.scannable_lexemes hps.1 hrest hnext

mutual

/-- The brackets of a declaration are closed where they were opened, so the depths behind it are
those before it. -/
theorem FunctionDecl.scannable_lexemes : ∀ (d : FunctionDecl) {depths : Bracket → Nat}
    {ls : List Lexeme}, d.Proper → Scannable depths ls → Scannable depths (d.lexemes ++ ls)
  | ⟨_, name, arguments, body⟩, depths, ls, hd, h => by
    rw [FunctionDecl.Proper] at hd
    obtain ⟨-, hname, harguments, hbody⟩ := hd
    -- From the inside out: the brace after the body, the body, and what stands before it.
    have hclose : Scannable (Function.update depths .brace (depths .brace + 1))
        (.closing .brace :: ls) := Lexeme.scannable_closing h
    have hblock : Scannable depths
        (.opening .brace :: (Scope.lexemes body ++ .closing .brace :: ls)) :=
      Scope.scannable_lexemes body hbody hclose
    have hparams := Parameter.scannable_listLexemes harguments
      (Lexeme.scannable_closing (b := .paren) hblock) rfl
    rw [FunctionDecl.lexemes]
    simp only [List.cons_append, List.append_assoc, List.nil_append]
    exact ⟨by decide, rfl, hname.1, rfl, hparams⟩

/-- **The lexemes of a proper tree can be scanned**, before whatever can be scanned. -/
theorem Scope.scannable_lexemes : ∀ (T : List FunctionDecl) {depths : Bracket → Nat}
    {ls : List Lexeme}, Scope.Proper T → Scannable depths ls →
    Scannable depths (Scope.lexemes T ++ ls)
  | [], _, _, _, h => by
    rw [Scope.lexemes]
    exact h
  | d :: ds, _, _, hT, h => by
    rw [Scope.Proper] at hT
    rw [Scope.lexemes, List.append_assoc]
    exact FunctionDecl.scannable_lexemes d hT.1 (Scope.scannable_lexemes ds hT.2 h)

end

end Scannable

/-! ### The tokens of a tree derive it -/

theorem Token.kind_eq_of_key {t : Token} {l : Lexeme} (h : t.key = l.key) : t.kind = l.kind :=
  congrArg Prod.fst h

theorem Token.text_eq_of_key {t : Token} {l : Lexeme} (h : t.key = l.key) : t.text = l.text :=
  congrArg Prod.snd h

/-- A token with the key of a bracket is that bracket, -/
theorem Token.opens_of_key {t : Token} {b : Bracket} (h : t.key = (Lexeme.opening b).key) :
    t.opens b = true := by
  rw [Token.opens, t.kind_eq_of_key h, t.text_eq_of_key h, Bool.and_eq_true]
  exact ⟨rfl, beq_self_eq_true _⟩

/-- on either side, -/
theorem Token.closes_of_key {t : Token} {b : Bracket} (h : t.key = (Lexeme.closing b).key) :
    t.closes b = true := by
  rw [Token.closes, t.kind_eq_of_key h, t.text_eq_of_key h, Bool.and_eq_true]
  exact ⟨rfl, beq_self_eq_true _⟩

/-- and one with the key of a comma is a comma. -/
theorem Token.isLiteral_of_key {t : Token} (h : t.key = Lexeme.comma.key) :
    t.isLiteral "," = true := by
  rw [Token.isLiteral, t.kind_eq_of_key h, t.text_eq_of_key h]
  rfl

/-- Two tokens with the keys of a parameter derive the parameter. -/
theorem Parameter.param_of_keys {p : Parameter} {ts : List Token} (hp : p.Proper)
    (h : ts.map Token.key = p.lexemes.map Lexeme.key) : Param ts p := by
  obtain ⟨name, ts, rfl, hname, h⟩ := List.map_eq_cons_iff.1 h
  obtain ⟨type, ts, rfl, htype, h⟩ := List.map_eq_cons_iff.1 h
  obtain rfl := List.map_eq_nil_iff.1 h
  have hp' : p = ⟨name.text, type.text⟩ := by
    rw [name.text_eq_of_key hname, type.text_eq_of_key htype]
    rfl
  -- the kinds are those of the texts, since the parameter is proper
  have hidentifier : name.kind = .identifier := (name.kind_eq_of_key hname).trans hp.name.2
  have htypeName : type.kind = .keyword .typeName :=
    (type.kind_eq_of_key htype).trans (isWord_of_mem_spellings hp.type).2
  rw [hp']
  exact .mk hidentifier htypeName

/-- So do those of further parameters, each behind its comma, -/
theorem Parameter.moreParams_of_keys {ps : List Parameter} {ts : List Token}
    (hps : ∀ p ∈ ps, p.Proper) (h : ts.map Token.key = (Parameter.moreLexemes ps).map Lexeme.key) :
    MoreParams ts ps := by
  induction ps generalizing ts with
  | nil =>
    obtain rfl := List.map_eq_nil_iff.1 h
    exact .nil
  | cons p ps ih =>
    rw [List.forall_mem_cons] at hps
    rw [Parameter.moreLexemes, List.flatMap_cons, List.map_append] at h
    obtain ⟨us, vs, rfl, hhead, htail⟩ := List.map_eq_append_iff.1 h
    obtain ⟨comma, us, rfl, hcomma, hhead⟩ := List.map_eq_cons_iff.1 hhead
    have head : Param us p := Parameter.param_of_keys hps.1 hhead
    exact .cons (comma.isLiteral_of_key hcomma) head (ih hps.2 htail)

/-- and those of a whole list. -/
theorem Parameter.params_of_keys {ps : List Parameter} {ts : List Token}
    (hps : ∀ p ∈ ps, p.Proper) (h : ts.map Token.key = (Parameter.listLexemes ps).map Lexeme.key) :
    Params ts ps := by
  cases ps with
  | nil =>
    obtain rfl := List.map_eq_nil_iff.1 h
    exact .empty
  | cons p ps =>
    rw [List.forall_mem_cons] at hps
    rw [Parameter.listLexemes, List.map_append] at h
    obtain ⟨us, vs, rfl, hhead, htail⟩ := List.map_eq_append_iff.1 h
    have head : Param us p := Parameter.param_of_keys hps.1 hhead
    have tail : MoreParams vs ps := Parameter.moreParams_of_keys hps.2 htail
    -- nor is a comma written after the last parameter
    have hlist := Params.list head tail .absent
    rwa [List.append_nil] at hlist

mutual

/-- The tokens of a declaration are told apart by their keys, one after another. -/
theorem FunctionDecl.func_of_keys : ∀ (d : FunctionDecl) {ts : List Token}, d.Proper →
    ts.map Token.key = d.lexemes.map Lexeme.key → Func ts d
  | ⟨keyword, name, arguments, body⟩, ts, hd, h => by
    rw [FunctionDecl.Proper] at hd
    obtain ⟨rfl, hname, harguments, hbody⟩ := hd
    rw [FunctionDecl.lexemes] at h
    -- one token for each lexeme, in the order of the grammar
    obtain ⟨func, ts, rfl, hfunc, h⟩ := List.map_eq_cons_iff.1 h
    obtain ⟨named, ts, rfl, hnamed, h⟩ := List.map_eq_cons_iff.1 h
    obtain ⟨lparen, ts, rfl, hlparen, h⟩ := List.map_eq_cons_iff.1 h
    rw [List.map_append] at h
    obtain ⟨ps, ts, rfl, hparams, h⟩ := List.map_eq_append_iff.1 h
    obtain ⟨rparen, ts, rfl, hrparen, h⟩ := List.map_eq_cons_iff.1 h
    obtain ⟨lbrace, ts, rfl, hlbrace, h⟩ := List.map_eq_cons_iff.1 h
    rw [List.map_append] at h
    obtain ⟨bs, ts, rfl, hfuncs, h⟩ := List.map_eq_append_iff.1 h
    obtain ⟨rbrace, ts, rfl, hrbrace, h⟩ := List.map_eq_cons_iff.1 h
    obtain rfl := List.map_eq_nil_iff.1 h
    have hkeyword : func.kind = .keyword .function := func.kind_eq_of_key hfunc
    have hkind : named.kind = .identifier := (named.kind_eq_of_key hnamed).trans hname.2
    have htext : name = named.text := (named.text_eq_of_key hnamed).symm
    have params : Params ps arguments := Parameter.params_of_keys harguments hparams
    have funcs : Funcs bs body := Scope.funcs_of_keys body hbody hfuncs
    rw [htext]
    -- a printed body has no end marker in it
    exact .mk hkeyword hkind (lparen.opens_of_key hlparen) params (rparen.closes_of_key hrparen)
      (lbrace.opens_of_key hlbrace) funcs .absent (rbrace.closes_of_key hrbrace)

/-- **The tokens that the lexemes of a proper tree become derive the tree.** -/
theorem Scope.funcs_of_keys : ∀ (T : List FunctionDecl) {ts : List Token}, Scope.Proper T →
    ts.map Token.key = (Scope.lexemes T).map Lexeme.key → Funcs ts T
  | [], ts, _, h => by
    rw [Scope.lexemes] at h
    obtain rfl := List.map_eq_nil_iff.1 h
    exact .nil
  | d :: ds, ts, hT, h => by
    rw [Scope.Proper] at hT
    rw [Scope.lexemes, List.map_append] at h
    obtain ⟨us, vs, rfl, hhead, htail⟩ := List.map_eq_append_iff.1 h
    exact .cons (FunctionDecl.func_of_keys d hT.1 hhead) (Scope.funcs_of_keys ds hT.2 htail)

end

/-! ### The round trip -/

namespace Scope

/-- A tree that a source has is well-formed. -/
theorem wellFormed_of_ofSource {source : String} {T : Scope} (h : Scope.ofSource source = .ok T) :
    T.WellFormed := by
  rw [Scope.ofSource_eq_ofTokens, Scope.ofTokens_eq_ok_iff_awaits, Awaits.start_iff] at h
  refine ⟨Scope.proper_of_prog h.1 fun t ht => ?_, h.2⟩
  exact Token.spelled_of_mem_lexWith _ source t (List.mem_filter.1 ht).1

/-- A printing of a well-formed tree parses back to it. -/
theorem ofSource_of_prints {source : String} {T : Scope} (hT : T.WellFormed)
    (h : T.Prints source) : Scope.ofSource source = .ok T := by
  obtain ⟨lead, text, rfl, hlead, hwrites⟩ := h
  have hscannable : Lexeme.Scannable (fun _ => 0) (Scope.lexemes T) := by
    have hend : Lexeme.Scannable (fun _ => 0) [] := rfl
    rw [← List.append_nil (Scope.lexemes T)]
    exact Scope.scannable_lexemes T hT.proper hend
  have hstands := stands_ofSource (lead ++ text)
  rw [String.toList_append] at hstands
  -- after the leading separator the scan stands in front of the first lexeme
  obtain ⟨ts, s, hts, hs, htokens⟩ := (Separator.iff_lex.2 hlead).exists_tokens hstands
  have hkeys : (significant (lex (lead ++ text))).map Token.key =
      (Scope.lexemes T).map Lexeme.key := by
    show (significant (Scanner.ofSource (lead ++ text) ⟨false⟩).run.tokens).map Token.key = _
    rw [htokens, significant_append, Lexeme.significant_of_comments hts, List.nil_append]
    exact hwrites.map_key_tokens hscannable hs
  rw [Scope.ofSource_eq_ofTokens, Scope.ofTokens_eq_ok_iff_awaits, Awaits.start_iff]
  exact ⟨.complete (Scope.funcs_of_keys T hT.proper hkeys), hT.nesting_le⟩

/-- Every tree has a printing. -/
theorem exists_prints (T : Scope) : ∃ source, T.Prints source := by
  obtain ⟨text, hwrites⟩ := Lexeme.exists_writes (Scope.lexemes T)
  exact ⟨"" ++ text, "", text, rfl, Separator.iff_lex.1 .nil, hwrites⟩

/-- **Parsing inverts printing.** The trees that sources have are the well-formed ones, and every
printing of such a tree parses back to it. -/
theorem ofSource_eq_ok_iff_wellFormed :
    (∀ T : Scope, (∃ source, Scope.ofSource source = .ok T) ↔ T.WellFormed) ∧
      ∀ (T : Scope) (source : String), T.WellFormed → T.Prints source →
        Scope.ofSource source = .ok T := by
  refine ⟨fun T => ⟨?_, ?_⟩, fun T source hT hprints => ofSource_of_prints hT hprints⟩
  · rintro ⟨source, h⟩
    exact wellFormed_of_ofSource h
  · intro hT
    obtain ⟨source, hprints⟩ := exists_prints T
    exact ⟨source, ofSource_of_prints hT hprints⟩

/-- A declaration with a parameter, and a comment in its body. -/
theorem ofSource_comment_in_body :
    WellFormed [⟨.keyword .function, "f", [⟨"a", "byte"⟩], []⟩] ∧
      Prints [⟨.keyword .function, "f", [⟨"a", "byte"⟩], []⟩] "func f(a byte)\x7b/**/\x7d" ∧
      Scope.ofSource "func f(a byte)\x7b/**/\x7d" =
        .ok [⟨.keyword .function, "f", [⟨"a", "byte"⟩], []⟩] := by
  -- the names and the type are in order
  have hT : WellFormed [⟨.keyword .function, "f", [⟨"a", "byte"⟩], []⟩] := by
    refine ⟨?_, by decide⟩
    simp only [Scope.Proper, FunctionDecl.Proper]
    refine ⟨⟨trivial, ⟨by decide, by decide⟩, fun p hp => ?_, trivial⟩, trivial⟩
    obtain rfl := List.mem_singleton.1 hp
    exact ⟨⟨by decide, by decide⟩, by decide⟩
  -- the gaps: none at all except where two words meet, and a comment between the braces
  have hempty : ∀ {l : Lexeme} {next : Option Lexeme},
      (l.isVerbal = true → next.any Lexeme.isVerbal = false) → Lexeme.Gap l next "" := by
    intro l next h
    exact ⟨Separator.iff_lex.1 .nil, fun hverbal => .inr ⟨rfl, h hverbal⟩⟩
  have hcomment : Lexeme.Gap (.opening .brace) (some (.closing .brace)) "/**/" := by
    have hsep : Separator ('/' :: '*' :: ([] ++ (Delimited.blockComment.closer ++ []))) :=
      .comment .block trivial .nil
    refine ⟨Separator.iff_lex.1 hsep, fun hverbal => ?_⟩
    cases hverbal
  have hprints : Prints [⟨.keyword .function, "f", [⟨"a", "byte"⟩], []⟩]
      "func f(a byte)\x7b/**/\x7d" := by
    have hwrites : Lexeme.Writes [.word "func", .word "f", .opening .paren, .word "a",
        .word "byte", .closing .paren, .opening .brace, .closing .brace]
        ("func" ++ (" " ++ ("f" ++ ("" ++ ("(" ++ ("" ++ ("a" ++ (" " ++ ("byte" ++ ("" ++
          (")" ++ ("" ++ ("\x7b" ++ ("/**/" ++ ("\x7d" ++ ("" ++ "")))))))))))))))) := by
      refine .cons (Lexeme.gap_blank _ _) (.cons (hempty fun _ => rfl) ?_)
      refine .cons (hempty fun h => absurd h Bool.false_ne_true) (.cons (Lexeme.gap_blank _ _) ?_)
      refine .cons (hempty fun _ => rfl) (.cons (hempty fun _ => rfl) ?_)
      exact .cons hcomment (.cons (hempty fun _ => rfl) .nil)
    exact ⟨"", "func f(a byte)\x7b/**/\x7d", rfl, Separator.iff_lex.1 .nil, hwrites⟩
  exact ⟨hT, hprints, ofSource_eq_ok_iff_wellFormed.2 _ _ hT hprints⟩

end Scope

end DeclFront
