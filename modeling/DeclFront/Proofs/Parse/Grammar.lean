import DeclFront.Tree

/-!
# The grammar of declarations

The language of the parser, as derivations. Terminals are classes of tokens: a bracket or a comma is
known by its kind and its text, every other token by its kind alone, and spans never matter.

    Prog   ::= Func* | Func* EndMarker any*
    Func   ::= FuncKeyword Identifier ( Params ) { Func* EndMarker? }
    Params ::= empty | Param (, Param)* ,?
    Param  ::= Identifier TypeKeyword

Each nonterminal is a relation between the tokens that derive from it and the piece of tree that
stands for them, so a derivation of `Prog ts T` is at the same time the reading of `T` off the
tokens `ts`. The grammar is about tokens that matter (`significant`), and it sets no limit to
nesting: how many bodies are open at once is a measure of the tree (`Scope.nesting`).
-/

namespace DeclFront

/-- The tokens that matter to the grammar: no white space and no comments. -/
def significant (ts : List Token) : List Token :=
  ts.filter (!·.isIgnorable)

/-- What matters of two lists is what matters of each. -/
theorem significant_append (ts us : List Token) :
    significant (ts ++ us) = significant ts ++ significant us :=
  List.filter_append ts us

theorem significant_cons {t : Token} (ht : t.isIgnorable = false) (ts : List Token) :
    significant (t :: ts) = t :: significant ts :=
  List.filter_cons_of_pos (by simp [ht])

namespace Grammar

/-- No token, or one that satisfies `p`. -/
inductive Optional (p : Token → Prop) : List Token → Prop
  | absent : Optional p []
  | present {t : Token} (h : p t) : Optional p [t]

/-- `Param ::= Identifier TypeKeyword` -/
inductive Param : List Token → Parameter → Prop
  | mk {name type : Token} (hname : name.kind = .identifier)
      (htype : type.kind = .keyword .typeName) :
      Param [name, type] ⟨name.text, type.text⟩

/-- `(, Param)*` -/
inductive MoreParams : List Token → List Parameter → Prop
  | nil : MoreParams [] []
  | cons {comma : Token} {ts us : List Token} {p : Parameter} {ps : List Parameter}
      (hcomma : comma.isLiteral "," = true) (head : Param ts p) (tail : MoreParams us ps) :
      MoreParams (comma :: (ts ++ us)) (p :: ps)

/-- `Params ::= empty | Param (, Param)* ,?` -/
inductive Params : List Token → List Parameter → Prop
  | empty : Params [] []
  | list {ts us cs : List Token} {p : Parameter} {ps : List Parameter}
      (head : Param ts p) (tail : MoreParams us ps)
      (trailing : Optional (·.isLiteral "," = true) cs) :
      Params (ts ++ (us ++ cs)) (p :: ps)

mutual

/-- `Func ::= FuncKeyword Identifier ( Params ) { Func* EndMarker? }` -/
inductive Func : List Token → FunctionDecl → Prop
  | mk {keyword name lparen rparen lbrace rbrace : Token} {ps bs es : List Token}
      {arguments : List Parameter} {body : Scope}
      (hkeyword : keyword.kind = .keyword .function) (hname : name.kind = .identifier)
      (hlparen : lparen.opens .paren = true) (params : Params ps arguments)
      (hrparen : rparen.closes .paren = true) (hlbrace : lbrace.opens .brace = true)
      (funcs : Funcs bs body) (marker : Optional (·.kind = .endMarker) es)
      (hrbrace : rbrace.closes .brace = true) :
      Func (keyword :: name :: lparen :: (ps ++ rparen :: lbrace :: (bs ++ (es ++ [rbrace]))))
        ⟨.keyword .function, name.text, arguments, body⟩

/-- `Func*` -/
inductive Funcs : List Token → Scope → Prop
  | nil : Funcs [] []
  | cons {ts us : List Token} {d : FunctionDecl} {ds : Scope} (head : Func ts d)
      (tail : Funcs us ds) : Funcs (ts ++ us) (d :: ds)

end

/-- `Prog ::= Func* | Func* EndMarker any*` -/
inductive Prog : List Token → Scope → Prop
  | complete {ts : List Token} {T : Scope} (funcs : Funcs ts T) : Prog ts T
  | cut {ts rest : List Token} {marker : Token} {T : Scope} (funcs : Funcs ts T)
      (hmarker : marker.kind = .endMarker) : Prog (ts ++ marker :: rest) T

/-- A list of tokens that derives from `Prog`. -/
def Sentence (ts : List Token) : Prop :=
  ∃ T, Prog ts T

/-- A list of tokens with which some sentence begins. -/
def Viable (ts : List Token) : Prop :=
  ∃ us, Sentence (ts ++ us)

end Grammar

/-! ### Nesting -/

mutual

/-- How many bodies are open at once where the declaration is deepest. -/
def FunctionDecl.nesting : FunctionDecl → Nat
  | ⟨_, _, _, body⟩ => Scope.nesting body + 1

/-- How many bodies are open at once where the scope is deepest. -/
def Scope.nesting : List FunctionDecl → Nat
  | [] => 0
  | d :: ds => max d.nesting (Scope.nesting ds)

end

/-- The body of a declaration is open around everything in it. -/
theorem FunctionDecl.nesting_eq (d : FunctionDecl) : d.nesting = Scope.nesting d.body + 1 := by
  -- the recursion opens on the constructor only
  obtain ⟨keyword, name, arguments, body⟩ := d
  rw [FunctionDecl.nesting]

namespace Scope

@[simp] theorem nesting_nil : Scope.nesting [] = 0 := by rw [Scope.nesting]

@[simp] theorem nesting_cons (d : FunctionDecl) (ds : Scope) :
    Scope.nesting (d :: ds) = max d.nesting (Scope.nesting ds) := by rw [Scope.nesting]

/-- Declarations side by side are as deep as the deepest of them. -/
@[simp] theorem nesting_append (ds es : Scope) :
    Scope.nesting (ds ++ es) = max (Scope.nesting ds) (Scope.nesting es) := by
  -- on the declarations in front
  induction ds with
  | nil => simp
  | cons d ds ih => rw [List.cons_append, nesting_cons, nesting_cons, ih, Nat.max_assoc]

end Scope

end DeclFront
