import DeclFront.Shell.Execute

/-!
# The command line

The outermost layer: it asks the system for the arguments and the file, runs the command, and prints
what came of it. Everything is decided elsewhere.
-/

namespace DeclFront

/-- A failure of the system as a reason why a file could not be used. -/
def FileProblem.ofSystem : IO.Error → FileProblem
  | .noFileOrDirectory .. => .missing
  | .inappropriateType _ code _ => if code = 21 || code = -21 then .isDirectory else .notDirectory
  | .invalidArgument _ code details =>
    if code = 36 || code = -36 then .nameTooLong else .other details
  | error => .other (toString error)

/-- Read a source from the file system. -/
def readSystemFile (path : String) : IO (Except ReadError String) := do
  if let some problem := pathProblem? path then return .error (.inaccessible problem)
  match ← (IO.FS.readBinFile path).toBaseIO with
  | .error error =>
    match FileProblem.ofSystem error with
    | .isDirectory => return .error (.unreadable .isDirectory)
    | problem => return .error (.inaccessible problem)
  | .ok bytes => return Files.read [(["source"], .file (.bytes bytes))] "source"

/-- The file that a command line will read. -/
def Invocation.source? (i : Invocation) : Option String :=
  match i.command with
  | some (.lex file _ _) | some (.parse file _) | some (.check file) => some file
  | none => i.file

/-- What a failure tells the user. -/
def Failure.report : Failure → String
  | usage => usageText
  | unreadable file error => error.message file ++ "\n"
  | wrongSource file error =>
    String.join
      (["error[", error.code, "]: ", error.message, "\n  ", file, ":", toString error.span.start,
        ": ", error.label, "\n"] ++
        match error.advice? with
        | some advice => ["  help: ", advice, "\n"]
        | none => [])

/-- What an unusable command line tells the user. -/
def ArgumentError.report : ArgumentError → String
  | helpRequested => usageText
  | versionRequested => "quill 0.1.0\n"
  | missingFile => "error: a file is required\n"
  | unknownArgument => "error: unexpected argument\n"
  | emptyFile => "error: a file name must not be empty\n"
  | repeatedSwitch => "error: a switch cannot be used twice\n"
  | unexpectedValue => "error: a switch takes no value\n"
  | unknownCommand => "error: unrecognized command\n"

end DeclFront

open DeclFront in
/-- Run the program on its arguments. -/
def main (args : List String) : IO UInt32 := do
  let stdout ← IO.getStdout
  let stderr ← IO.getStderr
  match Invocation.ofArguments args with
  | .error error =>
    (if error.exitCode = 0 then stdout else stderr).putStr error.report
    return error.exitCode.toUInt32
  | .ok invocation =>
    let source ← match invocation.source? with
      | some file => readSystemFile file
      | none => pure (.error (.inaccessible .missing))
    let result := invocation.run fun _ => source
    stdout.putStr result.output
    if let some failure := result.failure then stderr.putStr failure.report
    return result.exitCode.toUInt32
