import DeclFront.Parse.Error
import DeclFront.Parse.Reader
import DeclFront.Tree

/-!
# The steps of a declaration

A declaration is read in eight steps, in the order in which its parts stand in the source:

    func  name  (  argument type ,  …  )  {  body  }

Each step looks at one token and decides what follows. Only the argument step may need a second
token, for the type; and only the body step leads away from the declaration, into the scope of its
body. So a step is a function from a token to a `Reaction`, and running the steps is somebody
else's task.

A closing parenthesis ends the argument list from two steps, after an argument and in place of one.
Both put it back and leave it to the step that closes the list.
-/

namespace DeclFront

/-- How many function bodies may be open at once. -/
def maxOpenBodies : Nat := 128

/-- The steps of a declaration. -/
inductive DeclStep where
  | keyword
  | name
  | openParams
  | parameter
  | delimiter
  | closeParams
  | body
  | closeBody
deriving DecidableEq, Repr, Inhabited

/-- Whether the tokens stop here: they ran out, the source was truncated, or the scan failed. -/
def isCutOff : Option Token → Bool
  | none => true
  | some t => t.kind == .endMarker || t.kind == .error

/-- What a step makes of its token. -/
inductive Reaction (σ : Type) where
  /-- The declaration has grown to `decl`; `next` comes next. -/
  | goto (next : DeclStep) (decl : FunctionDecl) (reader : Reader σ)
  /-- An argument was named; its type comes next. -/
  | awaitType (argument : String) (reader : Reader σ)
  /-- The body opens; its declarations come next. -/
  | enterBody (reader : Reader σ)
  /-- The declaration is complete. -/
  | finish (reader : Reader σ)
  /-- The token does not fit. -/
  | fail (error : SyntaxError) (reader : Reader σ)

namespace Reader

variable {σ : Type}

/-- Count one more open body. -/
def openBody (r : Reader σ) : Reader σ :=
  { r with openBodies := r.openBodies + 1 }

/-- Count `n` open bodies less. -/
def closeBodies (r : Reader σ) (n : Nat) : Reader σ :=
  { r with openBodies := r.openBodies - n }

/-- What the step `step` of the declaration `decl` makes of a token that was read. -/
def react (r : Reader σ) (decl : FunctionDecl) (token : Option Token) : DeclStep → Reaction σ
  | .keyword =>
    match token with
    | some t =>
      if t.kind = .keyword .function then .goto .name { decl with keyword := t.kind } r
      else .fail (.expectedFunction (Token.found token) t.span) r
    | none => .fail (.expectedFunction (Token.found token) (r.spanOf token)) r
  | .name =>
    match token with
    | some t =>
      if t.kind = .identifier then .goto .openParams { decl with name := t.text } r
      else .fail (.expectedName (Token.found token) t.span) r
    | none => .fail (.expectedName (Token.found token) (r.spanOf token)) r
  | .openParams =>
    if token.any (·.opens .paren) then .goto .parameter decl r
    else .fail (.expectedOpening .paren (Token.found token) (r.spanOf token)) r
  | .parameter =>
    match token with
    | some t =>
      if t.closes .paren then .goto .closeParams decl (r.putBack t)
      else if t.kind = .identifier then .awaitType t.text r
      else if isCutOff token then .fail (.argumentsCutOff (Token.found token) t.span) r
      else .fail (.expectedArgument (Token.found token) t.span) r
    | none => .fail (.argumentsCutOff (Token.found token) (r.spanOf token)) r
  | .delimiter =>
    match token with
    | some t =>
      if t.isLiteral "," then .goto .parameter decl r
      else if t.closes .paren then .goto .closeParams decl (r.putBack t)
      else if isCutOff token then .fail (.argumentsCutOff (Token.found token) t.span) r
      else .fail (.expectedDelimiter (Token.found token) t.span) r
    | none => .fail (.argumentsCutOff (Token.found token) (r.spanOf token)) r
  | .closeParams =>
    if token.any (·.closes .paren) then .goto .body decl r
    else .fail (.expectedClosing .paren (Token.found token) (r.spanOf token)) r
  | .body =>
    if token.any (·.opens .brace) then
      if r.openBodies < maxOpenBodies then .enterBody r.openBody
      else .fail (.nestedTooDeep maxOpenBodies (r.spanOf token)) r
    else .fail (.expectedOpening .brace (Token.found token) (r.spanOf token)) r
  | .closeBody =>
    if token.any (·.closes .brace) then .finish r
    else .fail (.expectedClosing .brace (Token.found token) (r.spanOf token)) r

/-- What the argument `argument` of `decl` makes of the token after it: its type, or a failure. -/
def reactType (r : Reader σ) (decl : FunctionDecl) (argument : String) (token : Option Token) :
    Except SyntaxError FunctionDecl :=
  match token with
  | some t =>
    if t.kind = .keyword .typeName then
      .ok { decl with arguments := decl.arguments ++ [⟨argument, t.text⟩] }
    else if isCutOff token then .error (.argumentsCutOff (Token.found token) t.span)
    else .error (.expectedType (Token.found token) t.span)
  | none => .error (.argumentsCutOff (Token.found token) (r.spanOf token))

end Reader

end DeclFront
