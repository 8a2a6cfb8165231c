/-!
# Files

The directory that configuration is read from: some files by their paths, and what
happens when a path is opened for reading.

## Main definitions

* `Directory` — the files below one directory.
* `ReadError`, `ReadError.message` — why a file was not read.
* `Directory.readBytes`, `Directory.readText` — the bytes and the text of the file at a path.
-/

namespace GraphWalk

/-- The files below one directory, each with the names that lead to it. -/
structure Directory where
  /-- The names from the directory to a file, and the bytes of the file. -/
  files : List (List String × ByteArray) := []

/-- Why a file was not read. -/
inductive ReadError
  /-- There is nothing at the path. -/
  | notFound
  /-- There is a directory at the path. -/
  | isDirectory
  /-- The path goes on below a file. -/
  | notDirectory
  /-- The bytes of the file are no text. -/
  | notText
  deriving DecidableEq, Repr, Inhabited

/-- The text of a failure to read. -/
def ReadError.message : ReadError → String
  | .notFound => "No such file or directory (os error 2)"
  | .isDirectory => "Is a directory (os error 21)"
  | .notDirectory => "Not a directory (os error 20)"
  | .notText => "stream did not contain valid UTF-8"

namespace Directory

/-- What a path leads to. -/
inductive Place
  /-- A directory below the one at hand, or that one itself. -/
  | inside (names : List String)
  /-- A directory above the one at hand. -/
  | above
  /-- A file. -/
  | file (bytes : ByteArray)

/-- The names of a path, empty ones included. -/
def components (path : String) : List String := path.splitOn "/"

/-- The bytes of the file at some names. -/
def file? (d : Directory) (names : List String) : Option ByteArray :=
  (d.files.find? fun file => file.1 == names).map Prod.snd

/-- Some file lies below the names. -/
def hasBelow (d : Directory) (names : List String) : Bool :=
  d.files.any fun file => names.length < file.1.length && file.1.take names.length == names

/-- One name further. -/
def enter (d : Directory) (place : Place) (name : String) : Except ReadError Place :=
  match place with
  | .file _ => .error .notDirectory
  | .above => if name = "" ∨ name = "." ∨ name = ".." then .ok .above else .error .notFound
  | .inside names =>
    if name = "" ∨ name = "." then .ok place
    else if name = ".." then
      .ok (if names.isEmpty then .above else .inside names.dropLast)
    else
      match d.file? (names ++ [name]) with
      | some bytes => .ok (.file bytes)
      | none =>
        if d.hasBelow (names ++ [name]) then .ok (.inside (names ++ [name]))
        else .error .notFound

/-- What a path leads to.  A path from the root of all files leads above the directory at hand. -/
def place (d : Directory) (path : String) : Except ReadError Place :=
  (components path).foldlM d.enter (if path.startsWith "/" then .above else .inside [])

/-- The bytes of the file at a path. -/
def readBytes (d : Directory) (path : String) : Except ReadError ByteArray :=
  match d.place path with
  | .error e => .error e
  | .ok (.file bytes) => .ok bytes
  | .ok _ => .error .isDirectory

/-- The text of the file at a path. -/
def readText (d : Directory) (path : String) : Except ReadError String :=
  match d.readBytes path with
  | .error e => .error e
  | .ok bytes =>
    match String.fromUTF8? bytes with
    | some text => .ok text
    | none => .error .notText

end Directory

end GraphWalk
