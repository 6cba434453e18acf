import DeclFront.Proofs.Parse.Grammar
import DeclFront.Proofs.Parse.Move

/-!
# What an unfinished parse demands

A machine in the middle of a parse has read the first part of a program. `Awaits` says which tokens
can follow, and which tree comes out if they do: the rest of the declaration in focus (`DeclRest`),
then the rest of every scope around it, from the inside out.

The relation is the invariant that ties the machine to the grammar, and it is exact at every token:

* `Move.awaits_iff`: where the machine goes on, the tokens that could follow before are those that
  can follow now, with the token read in front;
* `exists_move_of_awaits`: a token that could follow makes the machine go on, unless it ends the
  source or opens one body too many;
* `exists_awaits`: from every place of a parse some tokens lead to an end.

So a machine never reads past the point up to which its input can still become a program.
-/

namespace DeclFront

open Grammar

variable {σ : Type}

/-! ### The rest of a declaration -/

/-- The declaration with further arguments. -/
def FunctionDecl.addArguments (d : FunctionDecl) (ps : List Parameter) : FunctionDecl :=
  { d with arguments := d.arguments ++ ps }

@[simp] theorem FunctionDecl.addArguments_nil (d : FunctionDecl) : d.addArguments [] = d := by
  cases d
  rw [addArguments, List.append_nil]

/-- Arguments that are added in two portions are added one behind the other. -/
@[simp] theorem FunctionDecl.addArguments_addArguments (d : FunctionDecl)
    (ps qs : List Parameter) : (d.addArguments ps).addArguments qs = d.addArguments (ps ++ qs) := by
  simp only [addArguments, List.append_assoc]

/-- The tokens `ts` complete the declaration `d`, of which the parts before `place` are known, to
the declaration `d'`. -/
inductive DeclRest : DeclPlace → FunctionDecl → List Token → FunctionDecl → Prop
  | closeBody {t : Token} {d : FunctionDecl} (h : t.closes .brace = true) :
      DeclRest (.step .closeBody) d [t] d
  | body {t : Token} {bs es us : List Token} {d d' : FunctionDecl} {body : Scope}
      (h : t.opens .brace = true) (funcs : Funcs bs body)
      (marker : Optional (·.kind = .endMarker) es)
      (rest : DeclRest (.step .closeBody) { d with body := body } us d') :
      DeclRest (.step .body) d (t :: (bs ++ (es ++ us))) d'
  | closeParams {t : Token} {us : List Token} {d d' : FunctionDecl}
      (h : t.closes .paren = true) (rest : DeclRest (.step .body) d us d') :
      DeclRest (.step .closeParams) d (t :: us) d'
  | delimiter {ts cs us : List Token} {d d' : FunctionDecl} {ps : List Parameter}
      (more : MoreParams ts ps) (trailing : Optional (·.isLiteral "," = true) cs)
      (rest : DeclRest (.step .closeParams) (d.addArguments ps) us d') :
      DeclRest (.step .delimiter) d (ts ++ (cs ++ us)) d'
  | parameter {ts us : List Token} {d d' : FunctionDecl} {ps : List Parameter}
      (params : Params ts ps)
      (rest : DeclRest (.step .closeParams) (d.addArguments ps) us d') :
      DeclRest (.step .parameter) d (ts ++ us) d'
  | argumentType {t : Token} {us : List Token} {d d' : FunctionDecl} {argument : String}
      (h : t.kind = .keyword .typeName)
      (rest : DeclRest (.step .delimiter) (d.addArguments [⟨argument, t.text⟩]) us d') :
      DeclRest (.argumentType argument) d (t :: us) d'
  | openParams {t : Token} {us : List Token} {d d' : FunctionDecl}
      (h : t.opens .paren = true) (rest : DeclRest (.step .parameter) d us d') :
      DeclRest (.step .openParams) d (t :: us) d'
  | name {t : Token} {us : List Token} {d d' : FunctionDecl}
      (h : t.kind = .identifier)
      (rest : DeclRest (.step .openParams) { d with name := t.text } us d') :
      DeclRest (.step .name) d (t :: us) d'
  | keyword {t : Token} {us : List Token} {d d' : FunctionDecl}
      (h : t.kind = .keyword .function)
      (rest : DeclRest (.step .name) { d with keyword := t.kind } us d') :
      DeclRest (.step .keyword) d (t :: us) d'

namespace DeclRest

variable {d d' : FunctionDecl} {t : Token} {us : List Token}

/-- A declaration is not complete before its closing brace. -/
theorem ne_nil {place : DeclPlace} {ts : List Token} (h : DeclRest place d ts d') : ts ≠ [] := by
  induction h with
  | delimiter more trailing rest ih =>
    intro hts
    exact ih (List.append_eq_nil_iff.1 (List.append_eq_nil_iff.1 hts).2).2
  | parameter params rest ih =>
    intro hts
    exact ih (List.append_eq_nil_iff.1 hts).2
  | _ => exact List.cons_ne_nil _ _

/-- The closing brace is all that is left. -/
theorem closeBody_cons_iff :
    DeclRest (.step .closeBody) d (t :: us) d' ↔ t.closes .brace = true ∧ us = [] ∧ d' = d := by
  constructor
  · intro h
    cases h with
    | closeBody h => exact ⟨h, rfl, rfl⟩
  · rintro ⟨h, rfl, rfl⟩
    exact .closeBody h

/-- Behind the closing parenthesis the body comes next. -/
theorem closeParams_cons_iff :
    DeclRest (.step .closeParams) d (t :: us) d' ↔
      t.closes .paren = true ∧ DeclRest (.step .body) d us d' := by
  constructor
  · intro h
    cases h with
    | closeParams h rest => exact ⟨h, rest⟩
  · rintro ⟨h, rest⟩
    exact .closeParams h rest

/-- Behind the type of an argument a comma may follow. -/
theorem argumentType_cons_iff {argument : String} :
    DeclRest (.argumentType argument) d (t :: us) d' ↔
      t.kind = .keyword .typeName ∧
        DeclRest (.step .delimiter) (d.addArguments [⟨argument, t.text⟩]) us d' := by
  constructor
  · intro h
    cases h with
    | argumentType h rest => exact ⟨h, rest⟩
  · rintro ⟨h, rest⟩
    exact .argumentType h rest

/-- Behind the opening parenthesis the arguments come next. -/
theorem openParams_cons_iff :
    DeclRest (.step .openParams) d (t :: us) d' ↔
      t.opens .paren = true ∧ DeclRest (.step .parameter) d us d' := by
  constructor
  · intro h
    cases h with
    | openParams h rest => exact ⟨h, rest⟩
  · rintro ⟨h, rest⟩
    exact .openParams h rest

/-- Behind the name the opening parenthesis comes next. -/
theorem name_cons_iff :
    DeclRest (.step .name) d (t :: us) d' ↔
      t.kind = .identifier ∧ DeclRest (.step .openParams) { d with name := t.text } us d' := by
  constructor
  · intro h
    cases h with
    | name h rest => exact ⟨h, rest⟩
  · rintro ⟨h, rest⟩
    exact .name h rest

/-- Behind the keyword the name comes next. -/
theorem keyword_cons_iff :
    DeclRest (.step .keyword) d (t :: us) d' ↔
      t.kind = .keyword .function ∧ DeclRest (.step .name) { d with keyword := t.kind } us d' := by
  constructor
  · intro h
    cases h with
    | keyword h rest => exact ⟨h, rest⟩
  · rintro ⟨h, rest⟩
    exact .keyword h rest

/-- After an opening parenthesis stands the end of the list or an argument. -/
theorem parameter_cons_iff :
    DeclRest (.step .parameter) d (t :: us) d' ↔
      (t.closes .paren = true ∧ DeclRest (.step .closeParams) d (t :: us) d') ∨
        (t.kind = .identifier ∧ DeclRest (.argumentType t.text) d us d') := by
  constructor
  · intro h
    generalize hts : t :: us = ts at h
    cases h with
    | parameter params rest =>
      cases params with
      | empty =>
        -- no argument, so `t` is what closes the list
        subst hts
        rw [FunctionDecl.addArguments_nil] at rest
        exact .inl ⟨(closeParams_cons_iff.1 rest).1, rest⟩
      | list head tail trailing =>
        cases head with
        | mk hname htype =>
          simp only [List.cons_append, List.nil_append, List.append_assoc, List.cons.injEq] at hts
          obtain ⟨rfl, rfl⟩ := hts
          -- `t` names the first argument, and the others are what a delimiter leads to
          refine .inr ⟨hname, .argumentType htype (.delimiter tail trailing ?_)⟩
          rwa [FunctionDecl.addArguments_addArguments]
  · rintro (⟨-, rest⟩ | ⟨hname, rest⟩)
    · exact .parameter .empty ((FunctionDecl.addArguments_nil d).symm ▸ rest)
    · cases rest with
      | argumentType htype rest =>
        cases rest with
        | delimiter more trailing rest =>
          rw [FunctionDecl.addArguments_addArguments] at rest
          have h := DeclRest.parameter (.list (.mk hname htype) more trailing) rest
          simpa only [List.cons_append, List.nil_append, List.append_assoc] using h

/-- After an argument stands a comma, with what may follow an opening parenthesis, or the end of
the list. -/
theorem delimiter_cons_iff :
    DeclRest (.step .delimiter) d (t :: us) d' ↔
      (t.isLiteral "," = true ∧ DeclRest (.step .parameter) d us d') ∨
        (t.closes .paren = true ∧ DeclRest (.step .closeParams) d (t :: us) d') := by
  constructor
  · intro h
    generalize hts : t :: us = ts at h
    cases h with
    | delimiter more trailing rest =>
      cases more with
      | cons hcomma head tail =>
        simp only [List.cons_append, List.cons.injEq] at hts
        obtain ⟨rfl, rfl⟩ := hts
        -- the comma of a further argument: that argument heads a list of its own
        have h := DeclRest.parameter (.list head tail trailing) rest
        exact .inl ⟨hcomma, by simpa only [List.append_assoc] using h⟩
      | nil =>
        cases trailing with
        | absent =>
          subst hts
          rw [FunctionDecl.addArguments_nil] at rest
          exact .inr ⟨(closeParams_cons_iff.1 rest).1, rest⟩
        | present hcomma =>
          simp only [List.nil_append, List.cons_append, List.cons.injEq] at hts
          obtain ⟨rfl, rfl⟩ := hts
          -- the trailing comma: no argument follows
          exact .inl ⟨hcomma, .parameter .empty rest⟩
  · rintro (⟨hcomma, rest⟩ | ⟨-, rest⟩)
    · cases rest with
      | parameter params rest =>
        cases params with
        | empty => exact .delimiter .nil (.present hcomma) rest
        | list head tail trailing =>
          have h := DeclRest.delimiter (.cons hcomma head tail) trailing rest
          simpa only [List.cons_append, List.append_assoc] using h
    · exact .delimiter .nil .absent ((FunctionDecl.addArguments_nil d).symm ▸ rest)

/-- From its keyword on, the rest of a new declaration is a whole one. -/
theorem keyword_iff_func {ts : List Token} :
    DeclRest (.step .keyword) (.named "") ts d' ↔ Func ts d' := by
  constructor
  · -- both sides list the same parts; a rest is one nested level per place, a declaration is flat
    intro h
    cases h with
    | keyword hkeyword rest =>
    cases rest with
    | name hname rest =>
    cases rest with
    | openParams hlparen rest =>
    cases rest with
    | parameter params rest =>
    cases rest with
    | closeParams hrparen rest =>
    cases rest with
    | body hlbrace funcs marker rest =>
    cases rest with
    | closeBody hrbrace =>
      simp only [FunctionDecl.addArguments, FunctionDecl.named, hkeyword, List.nil_append]
      exact .mk hkeyword hname hlparen params hrparen hlbrace funcs marker hrbrace
  · rintro ⟨hkeyword, hname, hlparen, params, hrparen, hlbrace, funcs, marker, hrbrace⟩
    refine .keyword hkeyword (.name hname (.openParams hlparen (.parameter params
      (.closeParams hrparen (.body hlbrace funcs marker ?_)))))
    simp only [FunctionDecl.addArguments, FunctionDecl.named, hkeyword, List.nil_append]
    exact .closeBody hrbrace

end DeclRest

/-! ### The rest of a source -/

/-- The tokens `ts` complete a parse, in which the declarations of `enclosing` are open and `focus`
is being read, to a source with the declarations `T`. -/
inductive Awaits : List OpenDecl → Focus → List Token → Scope → Prop
  | source {done ds : Scope} {ts : List Token} (prog : Prog ts ds) :
      Awaits [] (.statement done) ts (done ++ ds)
  | scope {outer : OpenDecl} {enclosing : List OpenDecl} {done ds T : Scope}
      {bs es us : List Token} (funcs : Funcs bs ds) (marker : Optional (·.kind = .endMarker) es)
      (rest : Awaits enclosing (.declaration outer.before { outer.decl with body := done ++ ds }
        (.step .closeBody)) us T) :
      Awaits (outer :: enclosing) (.statement done) (bs ++ (es ++ us)) T
  | declaration {enclosing : List OpenDecl} {done T : Scope} {d d' : FunctionDecl}
      {place : DeclPlace} {us vs : List Token} (decl : DeclRest place d us d')
      (rest : Awaits enclosing (.statement (done ++ [d'])) vs T) :
      Awaits enclosing (.declaration done d place) (us ++ vs) T

namespace Awaits

variable {enclosing : List OpenDecl} {outer : OpenDecl} {done T : Scope} {d : FunctionDecl}
  {t : Token} {ts us vs : List Token}

/-- At the start of a parse, a whole source is demanded. -/
theorem start_iff : Awaits [] (.statement []) ts T ↔ Prog ts T := by
  constructor
  · intro h
    cases h with
    | source prog => exact prog
  · intro prog
    exact @source [] T ts prog

/-- A declaration may stand before whatever completes its scope. -/
theorem func {enclosing : List OpenDecl} (head : Func us d)
    (rest : Awaits enclosing (.statement (done ++ [d])) vs T) :
    Awaits enclosing (.statement done) (us ++ vs) T := by
  -- the declaration joins the list of those to come, at whichever level the scope is
  cases rest with
  | source prog =>
    rw [List.append_assoc]
    cases prog with
    | complete funcs => exact .source (.complete (.cons head funcs))
    | cut funcs hmarker =>
      rw [← List.append_assoc]
      exact .source (.cut (.cons head funcs) hmarker)
  | scope funcs marker rest =>
    rw [List.append_assoc] at rest
    rw [← List.append_assoc]
    exact .scope (.cons head funcs) marker rest

/-- The tokens `ts` complete a parse in which the innermost scope ends with `done`. -/
inductive Leaves : List OpenDecl → Scope → List Token → Scope → Prop
  | finish {done : Scope} : Leaves [] done [] done
  | cut {done : Scope} {marker : Token} {rest : List Token} (h : marker.kind = .endMarker) :
      Leaves [] done (marker :: rest) done
  | body {outer : OpenDecl} {enclosing : List OpenDecl} {done T : Scope} {es us : List Token}
      (marker : Optional (·.kind = .endMarker) es)
      (rest : Awaits enclosing
        (.declaration outer.before { outer.decl with body := done } (.step .closeBody)) us T) :
      Leaves (outer :: enclosing) done (es ++ us) T

/-- To leave the scope is one way to complete it. -/
theorem of_leaves (h : Leaves enclosing done ts T) : Awaits enclosing (.statement done) ts T := by
  cases h with
  | finish => simpa using @source done _ _ (.complete .nil)
  | cut h => simpa using @source done _ _ (.cut .nil h)
  | body marker rest =>
    refine @scope _ _ _ _ _ [] _ _ .nil marker ?_
    simpa using rest

/-- Where a statement may stand, a declaration follows or the scope ends. -/
theorem func_or_leaves (h : Awaits enclosing (.statement done) ts T) :
    (∃ us vs d, ts = us ++ vs ∧ Func us d ∧ Awaits enclosing (.statement (done ++ [d])) vs T) ∨
      Leaves enclosing done ts T := by
  -- either the list of declarations to come is empty, or its head is the declaration that follows
  cases h with
  | source prog =>
    cases prog with
    | complete funcs =>
      cases funcs with
      | nil => exact .inr (by simpa using Leaves.finish)
      | @cons us vs d ds head tail =>
        have rest := @source (done ++ [d]) _ _ (.complete tail)
        rw [List.append_assoc] at rest
        exact .inl ⟨us, vs, d, rfl, head, rest⟩
    | @cut _ after _ _ funcs hmarker =>
      cases funcs with
      | nil => exact .inr (by simpa using Leaves.cut hmarker)
      -- what stands behind the end marker goes with the declarations that follow
      | @cons us vs d ds head tail =>
        have rest := @source (done ++ [d]) _ _ (@Prog.cut _ after _ _ tail hmarker)
        rw [List.append_assoc] at rest
        exact .inl ⟨us, _, d, List.append_assoc .., head, rest⟩
  | scope funcs marker rest =>
    cases funcs with
    | nil =>
      -- a body without further declarations is left
      rw [List.append_nil] at rest
      rw [List.nil_append]
      exact .inr (.body marker rest)
    | @cons us vs d ds head tail =>
      refine .inl ⟨us, _, d, List.append_assoc .., head, .scope tail marker ?_⟩
      rwa [List.append_assoc]

/-- Inside a declaration, its rest is demanded first. -/
theorem declaration_cons_iff {place : DeclPlace} :
    Awaits enclosing (.declaration done d place) (t :: ts) T ↔
      ∃ us vs d', ts = us ++ vs ∧ DeclRest place d (t :: us) d' ∧
        Awaits enclosing (.statement (done ++ [d'])) vs T := by
  constructor
  · intro h
    generalize hts : t :: ts = ws at h
    cases h with
    | @declaration _ _ _ _ d' _ us vs decl rest =>
      cases us with
      | nil => exact absurd rfl decl.ne_nil
      | cons u us =>
        simp only [List.cons_append, List.cons.injEq] at hts
        obtain ⟨rfl, rfl⟩ := hts
        exact ⟨us, vs, d', rfl, decl, rest⟩
  · rintro ⟨us, vs, d', rfl, decl, rest⟩
    exact .declaration decl rest

/-- Where the place after a token demands what the place before it does, so does the parse. -/
theorem declaration_congr {place place' : DeclPlace} {d₁ : FunctionDecl}
    (h : ∀ us d', DeclRest place d (t :: us) d' ↔ DeclRest place' d₁ us d') :
    Awaits enclosing (.declaration done d place) (t :: ts) T ↔
      Awaits enclosing (.declaration done d₁ place') ts T := by
  rw [declaration_cons_iff]
  constructor
  · rintro ⟨us, vs, d', rfl, decl, rest⟩
    exact .declaration ((h us d').1 decl) rest
  · intro hA
    cases hA with
    | declaration decl rest => exact ⟨_, _, _, rfl, (h _ _).2 decl, rest⟩

/-- The same where the token is read again. -/
theorem declaration_congr_putBack {place place' : DeclPlace}
    (h : ∀ us d', DeclRest place d (t :: us) d' ↔ DeclRest place' d (t :: us) d') :
    Awaits enclosing (.declaration done d place) (t :: ts) T ↔
      Awaits enclosing (.declaration done d place') (t :: ts) T := by
  simp only [declaration_cons_iff, h]

/-- A keyword at the start of a statement begins a declaration. -/
theorem declaration_of_func (hts : t :: ts = us ++ vs) (head : Func us d)
    (rest : Awaits enclosing (.statement (done ++ [d])) vs T) :
    t.kind = .keyword .function ∧
      Awaits enclosing (.declaration done (.named "") (.step .keyword)) (t :: ts) T := by
  have decl := DeclRest.keyword_iff_func.2 head
  -- a declaration is not empty, so the token at hand is its keyword
  cases us with
  | nil => exact absurd rfl decl.ne_nil
  | cons u us =>
    cases hts
    exact ⟨(DeclRest.keyword_cons_iff.1 decl).1, .declaration decl rest⟩

/-- Where a declaration is demanded, it may stand as a statement. -/
theorem statement_of_declaration
    (h : Awaits enclosing (.declaration done (.named "") (.step .keyword)) ts T) :
    Awaits enclosing (.statement done) ts T := by
  cases h with
  | declaration decl rest => exact func (DeclRest.keyword_iff_func.1 decl) rest

/-- Between two statements of the source stands a keyword, an end marker, or nothing. -/
theorem source_cons_iff :
    Awaits [] (.statement done) (t :: ts) T ↔
      (t.kind = .keyword .function ∧
          Awaits [] (.declaration done (.named "") (.step .keyword)) (t :: ts) T) ∨
        (t.kind = .endMarker ∧ T = done) := by
  constructor
  · intro h
    obtain ⟨us, vs, d, hts, head, rest⟩ | hleave := h.func_or_leaves
    · exact .inl (declaration_of_func hts head rest)
    · cases hleave with
      | cut hmarker => exact .inr ⟨hmarker, rfl⟩
  · rintro (⟨-, h⟩ | ⟨hmarker, rfl⟩)
    · exact statement_of_declaration h
    · exact of_leaves (.cut hmarker)

/-- At the end of its tokens a source is complete. -/
theorem source_nil_iff : Awaits [] (.statement done) [] T ↔ T = done := by
  constructor
  · intro h
    obtain ⟨us, vs, d, hts, head, rest⟩ | hleave := h.func_or_leaves
    · have decl := DeclRest.keyword_iff_func.2 head
      exact absurd (List.append_eq_nil_iff.1 hts.symm).1 decl.ne_nil
    · cases hleave with
      | finish => rfl
  · rintro rfl
    exact of_leaves .finish

/-- Between two statements of a body stands a keyword, its closing brace, or an end marker. -/
theorem body_cons_iff :
    Awaits (outer :: enclosing) (.statement done) (t :: ts) T ↔
      (t.kind = .keyword .function ∧
          Awaits (outer :: enclosing) (.declaration done (.named "") (.step .keyword))
            (t :: ts) T) ∨
        (t.closes .brace = true ∧
          Awaits enclosing (.declaration outer.before { outer.decl with body := done }
            (.step .closeBody)) (t :: ts) T) ∨
        (t.kind = .endMarker ∧
          Awaits enclosing (.declaration outer.before { outer.decl with body := done }
            (.step .closeBody)) ts T) := by
  constructor
  · intro h
    obtain ⟨us, vs, d, hts, head, rest⟩ | hleave := h.func_or_leaves
    · exact .inl (declaration_of_func hts head rest)
    · generalize hws : t :: ts = ws at hleave
      cases hleave with
      | body marker rest =>
        cases marker with
        | absent =>
          -- without an end marker, `t` is the brace for which the declaration waits
          obtain rfl : t :: ts = _ := hws
          obtain ⟨us, vs, d', -, decl, -⟩ := declaration_cons_iff.1 rest
          exact .inr (.inl ⟨(DeclRest.closeBody_cons_iff.1 decl).1, rest⟩)
        | present hmarker =>
          cases hws
          exact .inr (.inr ⟨hmarker, rest⟩)
  · rintro (⟨-, h⟩ | ⟨-, h⟩ | ⟨hmarker, h⟩)
    · exact statement_of_declaration h
    · exact of_leaves (@Leaves.body _ _ _ _ [] _ .absent h)
    · exact of_leaves (@Leaves.body _ _ _ _ [t] _ (.present hmarker) h)

/-- A body is not complete without its closing brace. -/
theorem body_nil : ¬ Awaits (outer :: enclosing) (.statement done) [] T := by
  intro h
  obtain ⟨us, vs, d, hts, head, rest⟩ | hleave := h.func_or_leaves
  · have decl := DeclRest.keyword_iff_func.2 head
    exact absurd (List.append_eq_nil_iff.1 hts.symm).1 decl.ne_nil
  · generalize hws : ([] : List Token) = ws at hleave
    cases hleave with
    | body marker rest =>
      cases rest with
      | declaration decl rest =>
        have hnil := List.append_eq_nil_iff.1 (List.append_eq_nil_iff.1 hws.symm).2
        exact absurd hnil.1 decl.ne_nil

/-- After its opening brace, a declaration demands the declarations of its body. -/
theorem enterBody_iff (ht : t.opens .brace = true) :
    Awaits enclosing (.declaration done d (.step .body)) (t :: ts) T ↔
      Awaits (⟨done, d⟩ :: enclosing) (.statement []) ts T := by
  rw [declaration_cons_iff]
  constructor
  · rintro ⟨us, vs, d', rfl, decl, rest⟩
    cases decl with
    | body h funcs marker decl =>
      -- the body is now a scope of its own, and the rest of the declaration what follows it
      rw [List.append_assoc, List.append_assoc]
      exact .scope funcs marker (.declaration decl rest)
  · intro h
    cases h with
    | scope funcs marker rest =>
      cases rest with
      | declaration decl rest =>
        refine ⟨_, _, _, ?_, .body ht funcs marker decl, rest⟩
        simp only [List.append_assoc]

/-- After its closing brace, a declaration is complete. -/
theorem closeBody_iff (ht : t.closes .brace = true) :
    Awaits enclosing (.declaration done d (.step .closeBody)) (t :: ts) T ↔
      Awaits enclosing (.statement (done ++ [d])) ts T := by
  rw [declaration_cons_iff]
  constructor
  · rintro ⟨us, vs, d', rfl, decl, rest⟩
    obtain ⟨-, rfl, rfl⟩ := DeclRest.closeBody_cons_iff.1 decl
    exact rest
  · intro h
    exact ⟨[], ts, d, rfl, .closeBody ht, h⟩

/-- Neither is a declaration. -/
theorem declaration_nil {place : DeclPlace} :
    ¬ Awaits enclosing (.declaration done d place) [] T := by
  intro h
  generalize hws : ([] : List Token) = ws at h
  cases h with
  | declaration decl rest => exact absurd (List.append_eq_nil_iff.1 hws.symm).1 decl.ne_nil

end Awaits

/-! ### Step by step -/

namespace Machine

variable {m m' : Machine σ} {r : Reader σ} {t : Token} {ts : List Token} {T : Scope}
  {enclosing : List OpenDecl} {focus : Focus}

/-- **Exactness.** What a machine demands before a move is the token of the move, and then what it
demands after the move. -/
theorem Move.awaits_iff (h : Move r t enclosing focus m') (hr : r.backlog = []) :
    Awaits enclosing focus (t :: ts) T ↔
      Awaits m'.enclosing m'.focus (m'.reader.backlog ++ ts) T := by
  -- the characterization of each place has one disjunct for each of its moves, and the token of
  -- the move rules out the others
  cases h with
  | @declare enclosing done h =>
    simp only [Reader.backlog_putBack, hr, List.cons_append, List.nil_append]
    cases enclosing with
    | nil => simp [Awaits.source_cons_iff, h]
    | cons outer enclosing => simp [Awaits.body_cons_iff, h, Token.closes]
  | endBody h =>
    have hk := Token.kind_of_closes h
    simp only [Reader.backlog_closeBodies, Reader.backlog_putBack, hr, List.cons_append,
      List.nil_append]
    simp [Awaits.body_cons_iff, h, hk]
  | cutBody h =>
    simp only [Reader.backlog_closeBodies, hr, List.nil_append]
    simp [Awaits.body_cons_iff, h, Token.closes]
  | keyword h =>
    rw [hr]
    exact Awaits.declaration_congr fun us d' => by simp [DeclRest.keyword_cons_iff, h]
  | name h =>
    rw [hr]
    exact Awaits.declaration_congr fun us d' => by simp [DeclRest.name_cons_iff, h]
  | openParams h =>
    rw [hr]
    exact Awaits.declaration_congr fun us d' => by simp [DeclRest.openParams_cons_iff, h]
  | noParameter h =>
    have hk := Token.kind_of_closes h
    rw [Reader.backlog_putBack, hr]
    exact Awaits.declaration_congr_putBack fun us d' => by
      simp [DeclRest.parameter_cons_iff, h, hk]
  | argument h =>
    rw [hr]
    exact Awaits.declaration_congr fun us d' => by
      simp [DeclRest.parameter_cons_iff, h, Token.closes]
  | argumentType h =>
    rw [hr]
    exact Awaits.declaration_congr fun us d' => by
      simp [DeclRest.argumentType_cons_iff, h, FunctionDecl.addArguments]
  | comma h =>
    have hk := Token.kind_of_isLiteral h
    rw [hr]
    exact Awaits.declaration_congr fun us d' => by
      simp [DeclRest.delimiter_cons_iff, h, hk, Token.closes]
  | noComma h =>
    have hk := Token.kind_of_closes h
    rw [Reader.backlog_putBack, hr]
    exact Awaits.declaration_congr_putBack fun us d' => by
      simp [DeclRest.delimiter_cons_iff, h, hk, Token.isLiteral]
  | closeParams h =>
    rw [hr]
    exact Awaits.declaration_congr fun us d' => by simp [DeclRest.closeParams_cons_iff, h]
  | enterBody h room =>
    rw [Reader.backlog_openBody, hr]
    exact Awaits.enterBody_iff h
  | closeBody h =>
    rw [hr]
    exact Awaits.closeBody_iff h

/-- **No refusal without reason.** A token that is demanded makes the machine go on, unless it ends
the source or opens one body too many. -/
theorem exists_move_of_awaits (h : Awaits m.enclosing m.focus (t :: ts) T) :
    (∃ m', Move r t m.enclosing m.focus m') ∨ m.Accepts (some t) T ∨ m.Overflows r t := by
  obtain ⟨reader, enclosing, focus⟩ := m
  dsimp only at h ⊢
  cases focus with
  | statement done =>
    cases enclosing with
    | nil =>
      obtain ⟨hk, -⟩ | ⟨hk, rfl⟩ := Awaits.source_cons_iff.1 h
      · exact .inl ⟨_, .declare hk⟩
      · refine .inr (.inl ⟨rfl, rfl, ?_⟩)
        intro u hu
        cases hu
        exact hk
    | cons outer enclosing =>
      obtain ⟨hk, -⟩ | ⟨hc, -⟩ | ⟨hk, -⟩ := Awaits.body_cons_iff.1 h
      · exact .inl ⟨_, .declare hk⟩
      · exact .inl ⟨_, .endBody hc⟩
      · exact .inl ⟨_, .cutBody hk⟩
  | declaration done d place =>
    -- at each place the demand names the tokens that fit
    obtain ⟨us, vs, d', -, decl, -⟩ := Awaits.declaration_cons_iff.1 h
    cases place with
    | argumentType argument =>
      exact .inl ⟨_, .argumentType (DeclRest.argumentType_cons_iff.1 decl).1⟩
    | step s =>
      cases s with
      | keyword => exact .inl ⟨_, .keyword (DeclRest.keyword_cons_iff.1 decl).1⟩
      | name => exact .inl ⟨_, .name (DeclRest.name_cons_iff.1 decl).1⟩
      | openParams => exact .inl ⟨_, .openParams (DeclRest.openParams_cons_iff.1 decl).1⟩
      | parameter =>
        obtain ⟨hc, -⟩ | ⟨hk, -⟩ := DeclRest.parameter_cons_iff.1 decl
        · exact .inl ⟨_, .noParameter hc⟩
        · exact .inl ⟨_, .argument hk⟩
      | delimiter =>
        obtain ⟨hl, -⟩ | ⟨hc, -⟩ := DeclRest.delimiter_cons_iff.1 decl
        · exact .inl ⟨_, .comma hl⟩
        · exact .inl ⟨_, .noComma hc⟩
      | closeParams => exact .inl ⟨_, .closeParams (DeclRest.closeParams_cons_iff.1 decl).1⟩
      | body =>
        cases decl with
        | body hopen funcs marker decl =>
          -- the one place at which the grammar is not all that counts
          by_cases room : r.openBodies < maxOpenBodies
          · exact .inl ⟨_, .enterBody hopen room⟩
          · exact .inr (.inr ⟨⟨done, d, rfl⟩, hopen, Nat.le_of_not_lt room⟩)
      | closeBody => exact .inl ⟨_, .closeBody (DeclRest.closeBody_cons_iff.1 decl).1⟩

/-- Nothing more is demanded where the end of the tokens is accepted. -/
theorem awaits_nil_iff : Awaits m.enclosing m.focus [] T ↔ m.Accepts none T := by
  obtain ⟨reader, enclosing, focus⟩ := m
  dsimp only [Accepts]
  cases focus with
  | statement done =>
    cases enclosing with
    | nil => simp [Awaits.source_nil_iff, eq_comm]
    | cons outer enclosing => simp [Awaits.body_nil]
  | declaration done d place => simp [Awaits.declaration_nil]

end Machine

/-! ### No dead ends -/

/-- Every declaration can be completed, wherever it stands. -/
theorem DeclRest.exists_rest (place : DeclPlace) (d : FunctionDecl) :
    ∃ ts d', DeclRest place d ts d' := by
  -- from the last place back to the first, each by one token before the rest already known
  have closeBody : ∀ d, ∃ ts d', DeclRest (.step .closeBody) d ts d' := fun d =>
    ⟨_, d, .closeBody (t := ⟨.bracketClose, "\x7d", default⟩) (by decide)⟩
  have body : ∀ d, ∃ ts d', DeclRest (.step .body) d ts d' := fun d => by
    obtain ⟨ts, d', rest⟩ := closeBody { d with body := [] }
    exact ⟨_, d', .body (t := ⟨.bracketOpen, "\x7b", default⟩) (by decide) .nil .absent rest⟩
  have closeParams : ∀ d, ∃ ts d', DeclRest (.step .closeParams) d ts d' := fun d => by
    obtain ⟨ts, d', rest⟩ := body d
    exact ⟨_, d', .closeParams (t := ⟨.bracketClose, ")", default⟩) (by decide) rest⟩
  have delimiter : ∀ d, ∃ ts d', DeclRest (.step .delimiter) d ts d' := fun d => by
    obtain ⟨ts, d', rest⟩ := closeParams (d.addArguments [])
    exact ⟨_, d', .delimiter .nil .absent rest⟩
  have parameter : ∀ d, ∃ ts d', DeclRest (.step .parameter) d ts d' := fun d => by
    obtain ⟨ts, d', rest⟩ := closeParams (d.addArguments [])
    exact ⟨_, d', .parameter .empty rest⟩
  have openParams : ∀ d, ∃ ts d', DeclRest (.step .openParams) d ts d' := fun d => by
    obtain ⟨ts, d', rest⟩ := parameter d
    exact ⟨_, d', .openParams (t := ⟨.bracketOpen, "(", default⟩) (by decide) rest⟩
  have name : ∀ d, ∃ ts d', DeclRest (.step .name) d ts d' := fun d => by
    obtain ⟨ts, d', rest⟩ := openParams { d with name := "f" }
    exact ⟨_, d', .name (t := ⟨.identifier, "f", default⟩) rfl rest⟩
  cases place with
  | argumentType argument =>
    obtain ⟨ts, d', rest⟩ := delimiter (d.addArguments [⟨argument, "bool"⟩])
    exact ⟨_, d', .argumentType (t := ⟨.keyword .typeName, "bool", default⟩) rfl rest⟩
  | step s =>
    cases s with
    | keyword =>
      obtain ⟨ts, d', rest⟩ := name { d with keyword := .keyword .function }
      exact ⟨_, d', .keyword (t := ⟨.keyword .function, "func", default⟩) rfl rest⟩
    | name => exact name d
    | openParams => exact openParams d
    | parameter => exact parameter d
    | delimiter => exact delimiter d
    | closeParams => exact closeParams d
    | body => exact body d
    | closeBody => exact closeBody d

/-- Every parse in progress can be completed. -/
theorem exists_awaits (enclosing : List OpenDecl) (focus : Focus) :
    ∃ ts T, Awaits enclosing focus ts T := by
  -- scopes are left from the inside out, each by the closing brace of its declaration
  have statement : ∀ enclosing done, ∃ ts T, Awaits enclosing (.statement done) ts T := by
    intro enclosing
    induction enclosing with
    | nil => exact fun done => ⟨[], done, .of_leaves .finish⟩
    | cons outer enclosing ih =>
      intro done
      obtain ⟨us, d', decl⟩ :=
        DeclRest.exists_rest (.step .closeBody) { outer.decl with body := done }
      obtain ⟨vs, T, rest⟩ := ih (outer.before ++ [d'])
      exact ⟨_, T, .of_leaves (.body .absent (.declaration decl rest))⟩
  cases focus with
  | statement done => exact statement enclosing done
  | declaration done d place =>
    obtain ⟨us, d', decl⟩ := DeclRest.exists_rest place d
    obtain ⟨vs, T, rest⟩ := statement enclosing (done ++ [d'])
    exact ⟨us ++ vs, T, .declaration decl rest⟩

end DeclFront
