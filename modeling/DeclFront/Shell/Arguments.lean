import DeclFront.Shell.Similarity

/-!
# Command lines

A command line names a command and the file it works on, or just a file to check. Arguments are read
from left to right, and the first one that does not fit decides the answer. Whether the name of a
file is acceptable is not looked at when it is read, but when the next switch is reached or the
arguments end; an argument that does not fit in between is reported first.

A file may stand before a command, and the command then has a file of its own. After `--` every
argument is a file.
-/

namespace DeclFront

/-- What a command is asked to do. -/
inductive Command where
  /-- List the tokens of a file. -/
  | lex (file : String) (trivia json : Bool)
  /-- Show the declarations of a file. -/
  | parse (file : String) (json : Bool)
  /-- Say whether a file parses. -/
  | check (file : String)
deriving DecidableEq, Repr, Inhabited

/-- A command line that was understood. -/
structure Invocation where
  command : Option Command
  /-- The file named before any command. -/
  file : Option String
deriving DecidableEq, Repr, Inhabited

/-- Why a command line leads to no command. -/
inductive ArgumentError where
  /-- Help was asked for. -/
  | helpRequested
  /-- The version was asked for. -/
  | versionRequested
  /-- A command has no file. -/
  | missingFile
  /-- An argument has no meaning here. -/
  | unknownArgument
  /-- The name of a file is empty. -/
  | emptyFile
  /-- A switch is given twice. -/
  | repeatedSwitch
  /-- A switch is given a value. -/
  | unexpectedValue
  /-- There is no command of this name. -/
  | unknownCommand
deriving DecidableEq, Repr, Inhabited

/-- The exit status: asking for help or the version is no failure. -/
def ArgumentError.exitCode : ArgumentError → Nat
  | helpRequested | versionRequested => 0
  | _ => 2

/-! ### Single arguments -/

/-- An argument by its form. -/
inductive Argument where
  /-- `--` alone. -/
  | separator
  /-- `--name` or `--name=value`. -/
  | long (name : String) (value : Option String)
  /-- A dash and the switches after it. -/
  | short (first : Char) (rest : List Char)
  /-- Anything else, `-` alone included. -/
  | plain (text : String)
deriving DecidableEq, Repr

/-- The form of an argument. -/
def Argument.ofText (text : String) : Argument :=
  match text.toList with
  | ['-', '-'] => .separator
  | '-' :: '-' :: rest =>
    let name := rest.takeWhile (· != '=')
    match rest.dropWhile (· != '=') with
    | [] => .long (String.ofList name) none
    | _ :: value => .long (String.ofList name) (some (String.ofList value))
  | '-' :: first :: rest => .short first rest
  | _ => .plain text

/-- A switch of a command. -/
inductive Switch where
  | trivia
  | json
  | help
  | version
deriving DecidableEq, Repr

namespace Switch

/-- The switch of a long name. -/
def ofLong? (name : String) : Option Switch :=
  if name == "trivia" then some trivia
  else if name == "json" then some json
  else if name == "help" then some help
  else if name == "version" then some version
  else none

/-- The switch of a single rune. -/
def ofShort? (r : Char) : Option Switch :=
  if r == 'h' then some help else if r == 'V' then some version else none

end Switch

/-! ### The arguments of one command -/

/-- What was read of a command's arguments. -/
structure Given where
  file : Option String
  switches : List Switch
deriving DecidableEq, Repr

namespace Given

/-- Nothing was read. -/
def none : Given :=
  ⟨Option.none, []⟩

/-- Fails if the name of the file is empty. -/
def checkFile (g : Given) : Except ArgumentError Unit :=
  if g.file = some "" then .error .emptyFile else .ok ()

/-- Take up a switch. -/
def addSwitch (g : Given) (switch : Switch) : Except ArgumentError Given := do
  g.checkFile
  match switch with
  | .help => .error .helpRequested
  | .version => .error .versionRequested
  | switch =>
    if g.switches.contains switch then .error .repeatedSwitch
    else .ok { g with switches := switch :: g.switches }

/-- Take up a switch found by look-up, if the command has it. -/
def addKnown (g : Given) (known : List Switch) (switch : Option Switch) (hasValue : Bool) :
    Except ArgumentError Given :=
  match switch with
  | some switch =>
    if !known.contains switch then .error .unknownArgument
    else if hasValue then .error .unexpectedValue
    else g.addSwitch switch
  | Option.none => .error .unknownArgument

/-- Take up a file; `surplus` is the failure if there is one already. -/
def addFile (g : Given) (surplus : ArgumentError) (file : String) : Except ArgumentError Given :=
  if g.file.isSome then .error surplus else .ok { g with file := some file }

/-- Take up an argument that is neither a command nor `--`, by its form. -/
def add (g : Given) (known : List Switch) (surplus : ArgumentError) :
    Argument → Except ArgumentError Given
  | .long name value => g.addKnown known (Switch.ofLong? name) value.isSome
  | .short first _ => g.addKnown known (Switch.ofShort? first) false
  | .plain text => g.addFile surplus text
  | .separator => .ok g

end Given

/-- Read the arguments of a command that has the switches `known`; `plain` says that `--` was
read. -/
def readGiven (known : List Switch) : Bool → Given → List String → Except ArgumentError Given
  | _, given, [] => do
    given.checkFile
    .ok given
  | true, given, text :: rest => do
    readGiven known true (← given.addFile .unknownArgument text) rest
  | false, given, text :: rest => do
    let argument := Argument.ofText text
    readGiven known (argument == .separator) (← given.add known .unknownArgument argument) rest

/-! ### Whole command lines -/

/-- The name of a command. -/
inductive CommandName where
  | lex
  | parse
  | check
  | help
deriving DecidableEq, Repr

namespace CommandName

/-- The word for a command. -/
def word : CommandName → String
  | lex => "lex"
  | parse => "parse"
  | check => "check"
  | help => "help"

/-- All commands. -/
def all : List CommandName :=
  [lex, parse, check, help]

/-- The command of a word. -/
def ofWord? (word : String) : Option CommandName :=
  all.find? (·.word == word)

/-- The switches of a command. -/
def switches : CommandName → List Switch
  | lex => [.trivia, .json, .help]
  | parse => [.json, .help]
  | check | help => [.help]

end CommandName

/-- The failure for a file too many, where `plain` says that `--` was read. A word that resembles a
command is taken for one. -/
def surplusFile (plain : Bool) (text : String) : ArgumentError :=
  if plain && (CommandName.ofWord? text).isSome then .unknownArgument
  else if CommandName.all.any fun name => Likeness.resembles text name.word then .unknownCommand
  else .unknownArgument

/-- Asking for help on a topic: a topic is a command, and has no topics of its own. -/
def helpOn : List String → ArgumentError
  | [] => .helpRequested
  | [topic] => if (CommandName.ofWord? topic).isSome then .helpRequested else .unknownCommand
  | _ => .unknownCommand

/-- Read the arguments after the name of a command. -/
def readCommand (name : CommandName) (args : List String) : Except ArgumentError Command := do
  if name = .help then .error (helpOn args)
  let given ← readGiven name.switches false .none args
  match given.file with
  | none => .error .missingFile
  | some file =>
    let json := given.switches.contains .json
    match name with
    | .lex => .ok (.lex file (given.switches.contains .trivia) json)
    | .parse => .ok (.parse file json)
    | .check | .help => .ok (.check file)

/-- Read a command line from the first argument on; `plain` says that `--` was read. -/
def readInvocation : Bool → Given → List String → Except ArgumentError Invocation
  | _, given, [] => do
    given.checkFile
    .ok ⟨none, given.file⟩
  | true, given, text :: rest => do
    readInvocation true (← given.addFile (surplusFile true text) text) rest
  | false, given, text :: rest =>
    match CommandName.ofWord? text with
    | some name => do
      let command ← readCommand name rest
      given.checkFile
      .ok ⟨some command, given.file⟩
    | none => do
      let argument := Argument.ofText text
      let given ← given.add [.help, .version] (surplusFile false text) argument
      readInvocation (argument == .separator) given rest

/-- The meaning of a command line, without the name of the program. -/
def Invocation.ofArguments (args : List String) : Except ArgumentError Invocation :=
  readInvocation false .none args

end DeclFront
