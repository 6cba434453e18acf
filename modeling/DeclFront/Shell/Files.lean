/-!
# Files

The commands need one thing of a file system: the text behind a path, or the reason why there is
none. `Files` is a working directory held in memory. A path is followed part by part, so that a
missing part, and a plain file where a directory is needed, are told apart. Nothing is known of what
lies outside the working directory but that it is a directory.

Paths and their parts are bounded in size. A path as a whole is judged before it is followed, a part
only when the directory to look it up in has been reached.

Reading checks in a fixed order: whether there is something, whether it is too large, and only then
whether it is a text.
-/

namespace DeclFront

/-- Why a file could not be used. -/
inductive FileProblem where
  | missing
  | notDirectory
  | isDirectory
  | notText
  /-- The path holds the rune U+0000. -/
  | nulInPath
  /-- The path, or a part of it, has too many bytes. -/
  | nameTooLong
  /-- Any other reason, in the words of the system. -/
  | other (description : String)
deriving DecidableEq, Repr, Inhabited

namespace FileProblem

/-- The reason in words. -/
def message : FileProblem → String
  | missing => "No such file or directory (os error 2)"
  | notDirectory => "Not a directory (os error 20)"
  | isDirectory => "Is a directory (os error 21)"
  | notText => "stream did not contain valid UTF-8"
  | nulInPath => "file name contained an unexpected NUL byte"
  | nameTooLong => "File name too long (os error 36)"
  | other description => description

end FileProblem

/-- Why a source could not be read. -/
inductive ReadError where
  /-- There is nothing at the path. -/
  | inaccessible (problem : FileProblem)
  /-- The file has `size` bytes, more than a source may have. -/
  | tooLarge (size : Nat)
  /-- What is at the path cannot be read as text. -/
  | unreadable (problem : FileProblem)
deriving DecidableEq, Repr, Inhabited

/-- The largest size of a source, in bytes. -/
def maxSourceSize : Nat := 104857600

/-- The reason in words, for the path `path`. -/
def ReadError.message (path : String) : ReadError → String
  | inaccessible problem => "Cannot access file '" ++ path ++ "': " ++ problem.message
  | tooLarge size =>
    "Source file '" ++ path ++ "' is too large (" ++ toString size ++ " bytes, max " ++
      toString maxSourceSize ++ " bytes)"
  | unreadable problem => "Error reading file '" ++ path ++ "': " ++ problem.message

/-- What a file holds. -/
inductive Content where
  | text (text : String)
  | bytes (bytes : ByteArray)
  /-- So many zero bytes. -/
  | zeros (size : Nat)

namespace Content

/-- The size in bytes. -/
def size : Content → Nat
  | text t => t.utf8ByteSize
  | bytes b => b.size
  | zeros n => n

/-- The content as a text, if it is one. -/
def text? : Content → Option String
  | text t => some t
  | bytes b => String.fromUTF8? b
  | zeros n => some ("".pushn '\x00' n)

end Content

/-- What a path may lead to. -/
inductive Node where
  | file (content : Content)
  | directory

/-- A working directory: what its paths lead to, each path given by its parts. -/
abbrev Files := List (List String × Node)

/-- The largest size of a path, in bytes. -/
def maxPathSize : Nat := 4095

/-- The largest size of a part of a path, in bytes. -/
def maxPartSize : Nat := 255

/-- What is wrong with a path, whatever there may be at it. -/
def pathProblem? (path : String) : Option FileProblem :=
  if path.toList.contains '\x00' then some .nulInPath
  else if path.isEmpty then some .missing
  else if maxPathSize < path.utf8ByteSize then some .nameTooLong
  else none

/-- The parts of a path. -/
def pathParts (path : String) : List String :=
  path.splitOn "/"

namespace Files

/-- A place reached by following a path. -/
inductive Place where
  | inside (parts : List String)
  | outside
deriving DecidableEq, Repr

/-- What lies at a place. A place above another one is a directory. -/
def node? (files : Files) : Place → Option Node
  | .outside | .inside [] => some .directory
  | .inside parts =>
    match files.find? fun entry => entry.1 == parts with
    | some entry => some entry.2
    | none => if files.any fun entry => parts.isPrefixOf entry.1 then some .directory else none

/-- The place that a part leads to from a directory. -/
def Place.enter (place : Place) (part : String) : Except FileProblem Place :=
  if part == "" || part == "." then .ok place
  else if maxPartSize < part.utf8ByteSize then .error .nameTooLong
  else
    match place with
    | .outside => if part == ".." then .ok .outside else .error .missing
    | .inside parts =>
      if part != ".." then .ok (.inside (parts ++ [part]))
      else if parts.isEmpty then .ok .outside
      else .ok (.inside parts.dropLast)

/-- Follow the parts of a path from a place. -/
def follow (files : Files) : Place → List String → Except FileProblem Node
  | place, [] =>
    match files.node? place with
    | some node => .ok node
    | none => .error .missing
  | place, part :: parts =>
    match files.node? place with
    | none => .error .missing
    | some (.file _) => .error .notDirectory
    | some .directory =>
      match place.enter part with
      | .ok place => follow files place parts
      | .error problem => .error problem

/-- What a path leads to. A path that starts with a slash does not start in the directory. -/
def resolve (files : Files) (path : String) : Except FileProblem Node :=
  match pathProblem? path, pathParts path with
  | some problem, _ => .error problem
  | none, "" :: part :: parts => files.follow .outside (part :: parts)
  | none, parts => files.follow (.inside []) parts

/-- The text of the source at a path. -/
def read (files : Files) (path : String) : Except ReadError String :=
  match files.resolve path with
  | .error problem => .error (.inaccessible problem)
  | .ok .directory => .error (.unreadable .isDirectory)
  | .ok (.file content) =>
    if maxSourceSize < content.size then .error (.tooLarge content.size)
    else
      match content.text? with
      | some text => .ok text
      | none => .error (.unreadable .notText)

end Files

end DeclFront
