/-!
# ShopLens.Files.System

A file system at rest: what stands at each path, and why nothing can be had there. Programs are
written against `FileSystem`, so that a file system in memory serves as well as one on a disk.
-/

namespace ShopLens

/-! ## errors -/

/-- Why a file or folder cannot be used. -/
inductive FileError where
  | notFound
  | denied
  | notFolder
  | isFolder
  | nameTooLong
  | nulInPath
  | notText
  /-- Any other reason, in the words of the system. -/
  | other (words : String)
deriving DecidableEq, Repr

/-- The wording of a file error. -/
def FileError.message : FileError → String
  | notFound => "No such file or directory (os error 2)"
  | denied => "Permission denied (os error 13)"
  | notFolder => "Not a directory (os error 20)"
  | isFolder => "Is a directory (os error 21)"
  | nameTooLong => "File name too long (os error 36)"
  | nulInPath => "file name contained an unexpected NUL byte"
  | notText => "stream did not contain valid UTF-8"
  | other words => words

/-! ## file systems -/

/-- What stands at a path. -/
inductive Entry where
  | file (content : ByteArray)
  | folder (names : List String)

/-- A file system at rest. -/
structure FileSystem where
  look : String → Except FileError Entry

namespace FileSystem

/-- Whether a file stands at a path. -/
def isFile (fs : FileSystem) (path : String) : Bool :=
  match fs.look path with
  | .ok (.file _) => true
  | _ => false

/-- Whether a folder stands at a path. -/
def isFolder (fs : FileSystem) (path : String) : Bool :=
  match fs.look path with
  | .ok (.folder _) => true
  | _ => false

/-- The text in a file. -/
def readText (fs : FileSystem) (path : String) : Except FileError String :=
  match fs.look path with
  | .error e => .error e
  | .ok (.folder _) => .error .isFolder
  | .ok (.file content) =>
    match String.fromUTF8? content with
    | some text => .ok text
    | none => .error .notText

/-- The names in a folder, in no particular order. -/
def readFolder (fs : FileSystem) (path : String) : Except FileError (List String) :=
  match fs.look path with
  | .error e => .error e
  | .ok (.file _) => .error .notFolder
  | .ok (.folder names) => .ok names

/-- The file system with the given entries, in which nothing else stands. -/
def ofList (entries : List (String × Except FileError Entry)) : FileSystem :=
  ⟨fun path => (entries.lookup path).getD (.error .notFound)⟩

end FileSystem

end ShopLens
