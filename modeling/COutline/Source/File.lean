/-!
# Reading source files

Reading a file can fail in a handful of ways, each with the operating system's wording; a file
that is not valid UTF-8 cannot be read as text.  `MemoryFiles` is a file tree held in memory:
paths are relative to its root and are followed piece by piece as a file system follows them
(`MemoryFiles.resolve`), and a path that is a proper prefix of a stored file names a directory.

A path is refused before it is followed when it holds a NUL byte, which no system path can hold,
or when it has `pathLimit` bytes or more.  While following it, a name of more than `nameLimit`
bytes is refused in any directory that exists.  A path that starts with a slash is followed
from the system's root, of which only the empty device `/dev/null` is known (`systemFiles`).
-/

namespace COutline

/-- Why a file could not be read as text. -/
inductive FileError where
  | notFound
  | isDirectory
  | notADirectory
  | permissionDenied
  | nameTooLong
  | containsNul
  | invalidUtf8
deriving Repr, DecidableEq, Inhabited

namespace FileError

/-- The operating system's message, with its error number. -/
def message : FileError → String
  | notFound => "No such file or directory (os error 2)"
  | isDirectory => "Is a directory (os error 21)"
  | notADirectory => "Not a directory (os error 20)"
  | permissionDenied => "Permission denied (os error 13)"
  | nameTooLong => "File name too long (os error 36)"
  | containsNul => "file name contained an unexpected NUL byte"
  | invalidUtf8 => "stream did not contain valid UTF-8"

/-- The error as a debugging record: `Os { code, kind, message }` for what the system refused,
    or `Error { kind, message }` for a path with a NUL byte and for text that is not UTF-8. -/
def debugText : FileError → String
  | notFound => "Os \x7b code: 2, kind: NotFound, message: \"No such file or directory\" \x7d"
  | isDirectory => "Os \x7b code: 21, kind: IsADirectory, message: \"Is a directory\" \x7d"
  | notADirectory => "Os \x7b code: 20, kind: NotADirectory, message: \"Not a directory\" \x7d"
  | permissionDenied =>
    "Os \x7b code: 13, kind: PermissionDenied, message: \"Permission denied\" \x7d"
  | nameTooLong => "Os \x7b code: 36, kind: InvalidFilename, message: \"File name too long\" \x7d"
  | containsNul =>
    "Error \x7b kind: InvalidInput, message: \"file name contained an unexpected NUL byte\" \x7d"
  | invalidUtf8 =>
    "Error \x7b kind: InvalidData, message: \"stream did not contain valid UTF-8\" \x7d"

end FileError

/-- Files held in memory, by path relative to the tree's root. -/
structure MemoryFiles where
  files : List (String × ByteArray)
deriving Inhabited

namespace MemoryFiles

/-- The runs of characters between the slashes of a path, empty ones included: `a//b/` has the
    pieces `a`, an empty one, `b` and another empty one. -/
def pieces : List Char → List (List Char)
  | [] => [[]]
  | c :: cs =>
    if c = '/' then [] :: pieces cs
    else
      match pieces cs with
      | p :: ps => (c :: p) :: ps
      | [] => [[c]]

/-- The pieces of `path` between its slashes. -/
def pathPieces (path : String) : List String := (pieces path.toList).map String.ofList

/-- The names of a stored file's path: the pieces between slashes, without empty ones and `.`. -/
def storedNames (path : String) : List String :=
  (pathPieces path).filter fun piece => piece ≠ "" ∧ piece ≠ "."

/-- Where a path leads in the tree. -/
inductive Place where
  | file (bytes : ByteArray)
  /-- The directory with these names from the root. -/
  | directory (names : List String)
  /-- Above the root of the tree: a directory of which nothing is known. -/
  | outside
deriving Inhabited

/-- What stands at `names`: a stored file, a directory (the root, or a proper prefix of a
    stored file's names), or nothing. -/
def entryAt (fs : MemoryFiles) (names : List String) : Option Place :=
  match fs.files.find? (fun (p, _) => storedNames p == names) with
  | some (_, bytes) => some (.file bytes)
  | none =>
    if names.isEmpty || fs.files.any (fun (p, _) => names.isPrefixOf (storedNames p)) then
      some (.directory names)
    else none

/-- The longest name a directory can hold, in bytes. -/
def nameLimit : Nat := 255

/-- The bytes of the shortest path the system refuses as too long. -/
def pathLimit : Nat := 4096

/-- Whether `piece` is longer than any name a directory can hold. -/
def tooLong (piece : String) : Bool := nameLimit < piece.utf8ByteSize

/-- Follow the pieces of a path from `place`, one at a time, as a file system does: nothing can
    follow a file (not even `.` or a final slash), an empty piece and `.` stay, `..` goes up
    (from the root to `above`), a name longer than `nameLimit` bytes is refused, and any other
    name must stand in the directory reached. -/
def resolve (fs : MemoryFiles) (above : Place) : List String → Place → Except FileError Place
  | [], place => pure place
  | _ :: _, .file _ => throw .notADirectory
  | piece :: rest, .outside =>
    if piece = "" ∨ piece = "." ∨ piece = ".." then resolve fs above rest .outside
    else if tooLong piece then throw .nameTooLong
    else throw .notFound
  | piece :: rest, .directory names =>
    if piece = "" ∨ piece = "." then resolve fs above rest (.directory names)
    else if piece = ".." then
      resolve fs above rest (if names.isEmpty then above else .directory names.dropLast)
    else if tooLong piece then throw .nameTooLong
    else
      match fs.entryAt (names ++ [piece]) with
      | some place => resolve fs above rest place
      | none => throw .notFound

/-- The files known below the system's root, by path from it: the empty device `dev/null`. -/
def systemFiles : MemoryFiles := ⟨[("dev/null", ByteArray.empty)]⟩

/-- Where `path` leads: from the system's root when it starts with a slash (the root is its own
    parent there), else from the tree's root.  A path with a NUL byte, one of `pathLimit` bytes
    or more, and the empty path lead nowhere. -/
def locate (fs : MemoryFiles) (path : String) : Except FileError Place :=
  let cs := path.toList
  if cs.any (· = '\x00') then .error .containsNul
  else if pathLimit ≤ path.utf8ByteSize then .error .nameTooLong
  else if cs.isEmpty then .error .notFound
  else if cs.head? = some '/' then
    systemFiles.resolve (.directory []) (pathPieces path) (.directory [])
  else fs.resolve .outside (pathPieces path) (.directory [])

/-- The bytes of the file at `path`. -/
def readBytes (fs : MemoryFiles) (path : String) : Except FileError ByteArray := do
  match ← fs.locate path with
  | .file bytes => pure bytes
  | _ => throw .isDirectory

/-- Whether something (a file or a directory) is at `path`. -/
def holds (fs : MemoryFiles) (path : String) : Bool :=
  match fs.locate path with
  | .ok _ => true
  | .error _ => false

/-- The text of the file at `path`, which must be UTF-8. -/
def readText (fs : MemoryFiles) (path : String) : Except FileError String := do
  let bytes ← fs.readBytes path
  match String.fromUTF8? bytes with
  | some s => pure s
  | none => throw .invalidUtf8

/-- The system's empty device reads as the empty text, whatever the tree holds. -/
theorem readText_dev_null (fs : MemoryFiles) : fs.readText "/dev/null" = .ok "" := by
  unfold MemoryFiles.readText MemoryFiles.readBytes MemoryFiles.locate
  rw [if_neg (by decide), if_neg (by decide), if_neg (by decide), if_pos (by decide)]
  rfl

/-- A path with a NUL byte is refused before anything else is looked at. -/
theorem readText_nul (fs : MemoryFiles) : fs.readText "a\x00b.c" = .error .containsNul := by
  unfold MemoryFiles.readText MemoryFiles.readBytes MemoryFiles.locate
  rw [if_pos (by decide)]
  rfl

end MemoryFiles

end COutline
