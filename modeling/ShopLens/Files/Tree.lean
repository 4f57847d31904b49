import ShopLens.Files.Path
import ShopLens.Files.System

/-!
# ShopLens.Files.Tree

A file system in memory: a tree of folders and files, in which paths are followed segment by segment.

* A single dot and an empty segment stay in a folder, two dots go back to the folder above.
* Only folders can be entered; so a path with a slash at its end leads to a folder or nowhere.
* A segment has at most 255 bytes and a path fewer than 4096.
-/

namespace ShopLens

/-- A file or a folder with all it holds. -/
inductive Tree where
  | file (content : ByteArray)
  | folder (entries : List (String × Tree))

namespace Tree

/-- The greatest number of bytes of a name. -/
def maxNameBytes : Nat := 255

/-- The number of bytes that no path reaches. -/
def pathByteLimit : Nat := 4096

/-- The segments of a path as strings. -/
def segmentsOf (path : String) : List String := (Path.segments path.toList).map String.ofList

/-- Follows segments from a place in a tree; `above` are the folders above it, the nearest first. -/
def follow (above : List Tree) (here : Tree) : List String → Except FileError Tree
  | [] => .ok here
  | s :: ss =>
    match here with
    | .file _ => .error .notFolder
    | .folder entries =>
      if s = "" || s = "." then follow above here ss
      else if s = ".." then
        match above with
        | [] => follow [] here ss
        | up :: above => follow above up ss
      else if maxNameBytes < s.utf8ByteSize then .error .nameTooLong
      else
        match entries.lookup s with
        | none => .error .notFound
        | some child => follow (here :: above) child ss

/-- What stands at the place where a path leads. -/
def entry : Tree → Entry
  | file content => .file content
  | folder entries => .folder (entries.map Prod.fst)

/-- What stands at a path that starts at the root of the tree. -/
def look (root : Tree) (path : String) : Except FileError Entry :=
  if path.contains '\x00' then .error .nulInPath
  else if path.isEmpty then .error .notFound
  else if pathByteLimit ≤ path.utf8ByteSize then .error .nameTooLong
  else (follow [] root (segmentsOf path)).map entry

/-- The file system that a tree makes. -/
def fileSystem (root : Tree) : FileSystem := ⟨root.look⟩

/-- Puts something under a name, in place of what is there. -/
def replaceEntry (name : String) (t : Tree) : List (String × Tree) → List (String × Tree)
  | [] => [(name, t)]
  | (n, u) :: es => if n = name then (n, t) :: es else (n, u) :: replaceEntry name t es

/-- The tree with a change made at the place to which names lead; folders on the way are made. Below a
file nothing changes. -/
def change (f : Tree → Tree) (root : Tree) : List String → Tree
  | [] => f root
  | name :: names =>
    match root with
    | .file _ => root
    | .folder entries =>
      .folder
        (replaceEntry name (change f ((entries.lookup name).getD (.folder [])) names) entries)

/-- The names that lead to a place, after one more segment; two dots take back the last name. -/
def enter (names : List String) (segment : String) : List String :=
  if segment = "" || segment = "." then names
  else if segment = ".." then names.dropLast
  else names ++ [segment]

/-- The tree with a folder at a path and at each place on the way. Folders that are there keep what they
hold. -/
def makeFolder (root : Tree) (path : String) : Tree :=
  ((segmentsOf path).foldl (fun (names, t) segment =>
    (enter names segment, change id t (enter names segment))) ([], root)).2

/-- The tree with a file at a path, in place of what is there; folders on the way are made. -/
def putFile (root : Tree) (path : String) (content : ByteArray) : Tree :=
  change (fun _ => .file content) (root.makeFolder ((Path.parent path).getD ""))
    ((segmentsOf path).foldl enter [])

/-- The tree with a text in the file at a path. A folder is not made a file. -/
def writeText (root : Tree) (path text : String) : Except FileError Tree :=
  match root.look path with
  | .ok (.folder _) => .error .isFolder
  | .ok (.file _) => .ok (root.putFile path text.toUTF8)
  | .error .notFound => .ok (root.putFile path text.toUTF8)
  | .error e => .error e

end Tree

end ShopLens
