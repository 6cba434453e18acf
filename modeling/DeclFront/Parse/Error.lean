import DeclFront.Token

/-!
# Syntax errors

A parse stops at its first failure. The failure says what was wanted and what stood there, and
points at a span of the source. Everything a report shows about it is computed here: the message, a
code to look it up by, advice for some failures, and the label at the span.
-/

namespace DeclFront

/-- The first failure of a parse. `found` is what stood at `span`, in words. -/
inductive SyntaxError where
  /-- A declaration does not start with its keyword. -/
  | expectedFunction (found : String) (span : Span)
  /-- A declaration has no name. -/
  | expectedName (found : String) (span : Span)
  /-- An opening bracket is missing. -/
  | expectedOpening (bracket : Bracket) (found : String) (span : Span)
  /-- A closing bracket is missing. -/
  | expectedClosing (bracket : Bracket) (found : String) (span : Span)
  /-- The tokens end inside an argument list. -/
  | argumentsCutOff (found : String) (span : Span)
  /-- An argument has no name. -/
  | expectedArgument (found : String) (span : Span)
  /-- An argument has no type. -/
  | expectedType (found : String) (span : Span)
  /-- An argument is followed by neither a comma nor the end of the list. -/
  | expectedDelimiter (found : String) (span : Span)
  /-- The tokens end inside a body. -/
  | unexpectedEnd (span : Span)
  /-- A statement is no declaration. -/
  | unsupportedStatement (found : String) (span : Span)
  /-- A body opens while `limit` are open. -/
  | nestedTooDeep (limit : Nat) (span : Span)
  /-- The scan failed. -/
  | lexical (message : String) (span : Span)
deriving DecidableEq, Repr, Inhabited

namespace SyntaxError

/-- The failure of a scan, from the token that reports it. -/
def ofErrorToken (t : Token) : SyntaxError :=
  lexical t.text t.span

/-- Where the failure lies. -/
def span : SyntaxError → Span
  | expectedFunction _ span | expectedName _ span | expectedOpening _ _ span
  | expectedClosing _ _ span | argumentsCutOff _ span | expectedArgument _ span
  | expectedType _ span | expectedDelimiter _ span | unexpectedEnd span
  | unsupportedStatement _ span | nestedTooDeep _ span | lexical _ span => span

/-- The failure in one sentence. -/
def message : SyntaxError → String
  | expectedFunction found _ => "expected keyword `func`, found " ++ found
  | expectedName found _ => "expected identifier, found " ++ found
  | expectedOpening bracket found _ =>
    "expected opening bracket `" ++ bracket.openText ++ "`, found " ++ found
  | expectedClosing bracket found _ =>
    "expected closing bracket `" ++ bracket.closeText ++ "`, found " ++ found
  | argumentsCutOff found _ => "expected arguments, found " ++ found
  | expectedArgument found _ => "expected argument name, found " ++ found
  | expectedType found _ => "expected type, found " ++ found
  | expectedDelimiter found _ => "expected `,` or `)` after argument, found " ++ found
  | unexpectedEnd _ => "unexpected end of input"
  | unsupportedStatement found _ => "unsupported statement starting with " ++ found
  | nestedTooDeep limit _ => "function bodies nested deeper than " ++ toString limit ++ " levels"
  | lexical message _ => message

/-- The code under which the failure is documented. -/
def code (e : SyntaxError) : String :=
  "quill::syntax::" ++ match e with
    | expectedFunction .. => "expected_keyword"
    | expectedName .. => "expected_identifier"
    | expectedOpening .. => "expected_opening_bracket"
    | expectedClosing .. => "expected_closing_bracket"
    | argumentsCutOff .. => "expected_arguments"
    | expectedArgument .. => "expected_argument"
    | expectedType .. => "expected_type"
    | expectedDelimiter .. => "expected_delimiter"
    | unexpectedEnd .. => "unexpected_end"
    | unsupportedStatement .. => "unsupported_statement"
    | nestedTooDeep .. => "nesting_too_deep"
    | lexical .. => "lexical"

/-- Advice on how to mend the failure, where there is any. -/
def advice? : SyntaxError → Option String
  | argumentsCutOff .. => some "the argument list ends with `)`"
  | expectedType .. =>
    some "argument types are builtin type names such as `int16` or `string`"
  | unsupportedStatement .. => some "only `func` declarations are supported"
  | _ => none

/-- The words at the place of the failure. -/
def label : SyntaxError → String
  | expectedFunction .. => "expected `func` here"
  | expectedName .. => "expected a name here"
  | expectedOpening bracket _ _ => "expected `" ++ bracket.openText ++ "`"
  | expectedClosing bracket _ _ => "expected `" ++ bracket.closeText ++ "`"
  | argumentsCutOff .. => "argument list cut off here"
  | expectedArgument .. => "expected an argument name"
  | expectedType .. => "expected a type name"
  | expectedDelimiter .. => "expected a delimiter"
  | unexpectedEnd .. => "input ends here"
  | unsupportedStatement .. => "statement starts here"
  | nestedTooDeep .. => "this body is one level too deep"
  | lexical .. => "here"

end SyntaxError

end DeclFront
