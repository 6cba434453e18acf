import DeclFront.Dump.Json
import DeclFront.Dump.Outline
import DeclFront.Tree

/-!
# Dumps of tokens and trees

Tokens are listed one on a line, by kind and quoted text, or as JSON with their spans. Trees are
shown as an outline or as JSON. All four forms determine what they show; only the plain listing of
tokens leaves out the spans.
-/

namespace DeclFront

namespace Token

/-- A token as a line of a listing, without the line end, where `hidden` says which runes are given
by their code point. -/
def displayWith (hidden : Char → Bool) (t : Token) : String :=
  t.kind.name ++ " " ++ String.ofList (quoteWith hidden '"' t.text.toList)

/-- A token as a line of a listing, without the line end. -/
def display (t : Token) : String :=
  t.displayWith isHidden

/-- A token as JSON. -/
def toJson (t : Token) : Json :=
  .record [("kind", .text t.kind.name), ("text", .text t.text),
    ("span", .record [("start", .number t.span.start), ("end", .number t.span.stop)])]

end Token

/-- A list of tokens as lines, where `hidden` says which runes are given by their code point. -/
def listTokensWith (hidden : Char → Bool) (tokens : List Token) : String :=
  String.join (tokens.map fun t => t.displayWith hidden ++ "\n")

/-- A list of tokens as lines. -/
def listTokens (tokens : List Token) : String :=
  listTokensWith isHidden tokens

/-- A list of tokens as JSON. -/
def tokensToJson (tokens : List Token) : Json :=
  .list (tokens.map Token.toJson)

namespace Parameter

/-- A parameter as an outline. -/
def toOutline (p : Parameter) : Outline :=
  .record "Parameter" [("name", .text p.name), ("ty", .text p.type)]

/-- A parameter as JSON. -/
def toJson (p : Parameter) : Json :=
  .record [("name", .text p.name), ("ty", .text p.type)]

end Parameter

mutual

/-- A declaration as an outline. -/
def FunctionDecl.toOutline : FunctionDecl → Outline
  | ⟨keyword, name, arguments, body⟩ =>
    .tagged "Function" (.record "FunctionDecl"
      [("keyword", .name keyword.name), ("name", .text name),
       ("arguments", .list (arguments.map Parameter.toOutline)),
       ("body", .record "Scope" [("body", .list (Scope.toOutlines body))])])

/-- The declarations of a scope as outlines. -/
def Scope.toOutlines : List FunctionDecl → List Outline
  | [] => []
  | d :: ds => d.toOutline :: Scope.toOutlines ds

end

/-- A scope as an outline. -/
def Scope.toOutline (s : Scope) : Outline :=
  .record "Scope" [("body", .list (Scope.toOutlines s))]

mutual

/-- A declaration as JSON. -/
def FunctionDecl.toJson : FunctionDecl → Json
  | ⟨keyword, name, arguments, body⟩ =>
    .record [("Function", .record
      [("keyword", .text keyword.name), ("name", .text name),
       ("arguments", .list (arguments.map Parameter.toJson)),
       ("body", .record [("body", .list (Scope.toJsons body))])])]

/-- The declarations of a scope as JSON. -/
def Scope.toJsons : List FunctionDecl → List Json
  | [] => []
  | d :: ds => d.toJson :: Scope.toJsons ds

end

/-- A scope as JSON. -/
def Scope.toJson (s : Scope) : Json :=
  .record [("body", .list (Scope.toJsons s))]

end DeclFront
