import DeclFront.Dump.Listing
import DeclFront.Parse.Scope
import DeclFront.Shell.Arguments
import DeclFront.Shell.Files

/-!
# Running a command

A command reads one file, prints to standard output, and succeeds or fails. How files are read is a
parameter, so that a run is a function of the command line and the answers of the file system.

Listing tokens prints them first and fails afterwards if the last one reports an error; the two
other commands print nothing when they fail.
-/

namespace DeclFront

/-- Why a command failed. -/
inductive Failure where
  /-- Neither a command nor a file was given. -/
  | usage
  /-- The file could not be read. -/
  | unreadable (file : String) (error : ReadError)
  /-- The source is wrong. -/
  | wrongSource (file : String) (error : SyntaxError)
deriving DecidableEq, Repr

/-- How to call the program, line by line. -/
def usageLines : List String :=
  ["Scanner and declaration parser for the Quill language",
   "",
   "Usage: quill [FILE] [COMMAND]",
   "",
   "Commands:",
   "  lex    Print the tokens scanned from a file",
   "  parse  Print the statement tree parsed from a file",
   "  check  Check that a file parses",
   "  help   Print this message or the help of the given subcommand(s)",
   "",
   "Arguments:",
   "  [FILE]  File to check when no subcommand is given",
   "",
   "Options:",
   "  -h, --help     Print help",
   "  -V, --version  Print version"]

/-- How to call the program. -/
def usageText : String :=
  String.join (usageLines.map (· ++ "\n"))

/-- The exit status of a failure: 2 if there was nothing to do, else 1. -/
def Failure.exitCode : Failure → Nat
  | usage => 2
  | _ => 1

/-- What a run left behind. -/
structure RunResult where
  output : String
  failure : Option Failure
deriving DecidableEq, Repr

namespace RunResult

/-- The exit status of a run. -/
def exitCode (r : RunResult) : Nat :=
  match r.failure with
  | none => 0
  | some failure => failure.exitCode

/-- A run that printed `output` and succeeded. -/
def success (output : String) : RunResult :=
  ⟨output, none⟩

/-- A run that printed nothing and failed. -/
def failed (failure : Failure) : RunResult :=
  ⟨"", some failure⟩

end RunResult

/-- How a file is read. -/
abbrev FileReader := String → Except ReadError String

/-- Run `action` on the text of a file. -/
def withSource (read : FileReader) (file : String) (action : String → RunResult) : RunResult :=
  match read file with
  | .ok source => action source
  | .error error => .failed (.unreadable file error)

/-- Run `print` on the declarations of a file. -/
def withTree (read : FileReader) (file : String) (print : Scope → String) : RunResult :=
  withSource read file fun source =>
    match Scope.ofSource source with
    | .ok tree => .success (print tree)
    | .error error => .failed (.wrongSource file error)

/-- The failure that a list of tokens reports, if its last one is an error. -/
def reportedError? (tokens : List Token) : Option SyntaxError :=
  match tokens.getLast? with
  | some t => if t.kind = .error then some (.ofErrorToken t) else none
  | none => none

/-- Print the tokens of a file. -/
def runLex (read : FileReader) (file : String) (trivia json : Bool) : RunResult :=
  withSource read file fun source =>
    let tokens := lexWith ⟨trivia⟩ source
    ⟨if json then (tokensToJson tokens).pretty ++ "\n" else listTokens tokens,
      (reportedError? tokens).map (.wrongSource file)⟩

/-- Print the declarations of a file. -/
def runParse (read : FileReader) (file : String) (json : Bool) : RunResult :=
  withTree read file fun tree =>
    (if json then tree.toJson.pretty else tree.toOutline.pretty) ++ "\n"

/-- Say that a file parses, and how many declarations it has. -/
def runCheck (read : FileReader) (file : String) : RunResult :=
  withTree read file fun tree =>
    "✓ " ++ file ++ " parsed: " ++ toString tree.length ++ " declaration(s)\n"

/-- Run a command. -/
def Command.run (read : FileReader) : Command → RunResult
  | lex file trivia json => runLex read file trivia json
  | parse file json => runParse read file json
  | check file => runCheck read file

/-- Run a command line. A command wins over a file named before it; a file alone is checked. -/
def Invocation.run (read : FileReader) (i : Invocation) : RunResult :=
  match i.command, i.file with
  | some command, _ => command.run read
  | none, some file => runCheck read file
  | none, none => .failed .usage

end DeclFront
