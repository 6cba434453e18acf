import DeclFront.Parse.Machine
import DeclFront.Scan.Run

/-!
# Parsing

The public side of the parser. A reader can be asked for a whole scope, or be led through a
declaration step by step. The two agree, as both put every token to the same reactions
(`Reader.readStatements_eq`); they differ in who keeps the declarations that are open.

`Scope.ofTokens` parses a list of tokens. `Scope.ofSource` parses a source while it is being
scanned: the supply is the suspended scan, resumed for each token and left alone once the parse is
over.
-/

namespace DeclFront

/-- The outcome of a single step of a declaration. -/
structure StepOutcome (σ : Type) where
  /-- The step that follows, none at the end of the declaration, or the failure. -/
  next : Except SyntaxError (Option DeclStep)
  decl : FunctionDecl
  reader : Reader σ

namespace Reader

variable {σ : Type} [TokenSupply σ]

/-- Read a scope of the given level. -/
def readScope (r : Reader σ) (level : ScopeLevel) : Except SyntaxError Scope × Reader σ :=
  (Machine.start r).run level

/-- Read the body of `decl` after its opening brace: the declaration with that body, left at its
closing brace. -/
def readBody (r : Reader σ) (decl : FunctionDecl) : StepOutcome σ :=
  match r.readScope .body with
  | (.ok body, r) => ⟨.ok (some .closeBody), { decl with body := body }, r.closeBodies 1⟩
  | (.error error, r) => ⟨.error error, decl, r.closeBodies 1⟩

/-- Read the type of the argument `argument` of `decl`. -/
def readType (r : Reader σ) (decl : FunctionDecl) (argument : String) : StepOutcome σ :=
  match r.next with
  | (token, r) =>
    match r.reactType decl argument token with
    | .ok decl => ⟨.ok (some .delimiter), decl, r⟩
    | .error error => ⟨.error error, decl, r⟩

/-- Run the step `step` of the declaration `decl`. -/
def readStep (r : Reader σ) (decl : FunctionDecl) (step : DeclStep) : StepOutcome σ :=
  match r.next with
  | (token, r) =>
    match r.react decl token step with
    | .goto next decl r => ⟨.ok (some next), decl, r⟩
    | .awaitType argument r => r.readType decl argument
    | .enterBody r => r.readBody decl
    | .finish r => ⟨.ok none, decl, r⟩
    | .fail error r => ⟨.error error, decl, r⟩

/-- Read a whole source. -/
def readSource (r : Reader σ) : Except SyntaxError Scope :=
  (r.readScope .unit).1

end Reader

/-- The declarations in a list of tokens, or the first failure. -/
def Scope.ofTokens (tokens : List Token) : Except SyntaxError Scope :=
  (Reader.ofSupply tokens).readSource

/-- The declarations in a scan, parsed while it runs, or the first failure. -/
def Scope.ofScan {α : Type} (scan : Emitter α) : Except SyntaxError Scope :=
  (Reader.ofSupply scan).readSource

/-- The declarations in a source, or the first failure. -/
def Scope.ofSource (source : String) : Except SyntaxError Scope :=
  Scope.ofScan (Scanner.ofSource source ⟨false⟩).run

end DeclFront
