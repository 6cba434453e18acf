import DeclFront.Token

/-!
# Declaration trees

A source is a scope: a sequence of function declarations. Each has its own parameters and a body
that is again a scope, so the declarations form a forest. The declaring keyword is kept in the tree
because listings show it.
-/

namespace DeclFront

/-- A parameter of a function. -/
structure Parameter where
  name : String
  type : String
deriving DecidableEq, Repr, Inhabited

/-- A function declaration. -/
structure FunctionDecl where
  keyword : TokenKind
  name : String
  arguments : List Parameter
  body : List FunctionDecl
deriving Repr, Inhabited

/-- The declarations of a source, or of a function body, in order. -/
abbrev Scope := List FunctionDecl

namespace FunctionDecl

/-- A declaration of which only the name is known. -/
def named (name : String) : FunctionDecl :=
  ⟨.keyword .function, name, [], []⟩

end FunctionDecl

/-! ### Equality -/

mutual

/-- Equality of declarations can be decided. -/
def FunctionDecl.decEq : (d e : FunctionDecl) → Decidable (d = e)
  | ⟨k, n, a, b⟩, ⟨k', n', a', b'⟩ =>
    match Scope.decEq b b' with
    | isTrue hb =>
      if h : k = k' ∧ n = n' ∧ a = a' then
        isTrue (by obtain ⟨rfl, rfl, rfl⟩ := h; rw [hb])
      else
        isFalse fun heq => h (by injection heq with hk hn ha; exact ⟨hk, hn, ha⟩)
    | isFalse hb => isFalse fun heq => hb (by injection heq)

/-- Equality of scopes can be decided. -/
def Scope.decEq : (s t : List FunctionDecl) → Decidable (s = t)
  | [], [] => isTrue rfl
  | [], _ :: _ => isFalse (by simp)
  | _ :: _, [] => isFalse (by simp)
  | d :: s, e :: t =>
    match FunctionDecl.decEq d e with
    | isTrue hd =>
      match Scope.decEq s t with
      | isTrue hs => isTrue (by rw [hd, hs])
      | isFalse hs => isFalse fun heq => hs (by injection heq)
    | isFalse hd => isFalse fun heq => hd (by injection heq)

end

instance : DecidableEq FunctionDecl := FunctionDecl.decEq

end DeclFront
