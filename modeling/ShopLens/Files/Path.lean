/-!
# ShopLens.Files.Path

Paths as texts: segments between slashes, absolute if a slash stands in front. Empty segments and
single dots change nothing, but a path is kept as it was written.
-/

namespace ShopLens.Path

/-- The segments of a path, from slash to slash. -/
def segments (path : List Char) : List (List Char) :=
  match path with
  | [] => [[]]
  | c :: r =>
    if c = '/' then [] :: segments r
    else
      match segments r with
      | [] => [[c]]
      | s :: ss => (c :: s) :: ss

/-- The path of some segments. -/
def ofSegments (ss : List (List Char)) : List Char := ['/'].intercalate ss

/-- The path `child`, seen from the folder `base`. An absolute path stays what it is. -/
def join (base child : String) : String :=
  if child.startsWith "/" then child
  else if base.isEmpty || base.endsWith "/" then base ++ child
  else base ++ "/" ++ child

/-- Whether a segment changes nothing. -/
def isIdle (s : List Char) : Bool := s = [] || s = ['.']

/-- Drops idle segments at the end. -/
def dropIdleEnd (ss : List (List Char)) : List (List Char) := (ss.reverse.dropWhile isIdle).reverse

/-- Drops the last segment that is not idle, with all that follows and the idle ones before it. -/
def dropLastSegment? (ss : List (List Char)) : Option (List (List Char)) :=
  if (dropIdleEnd ss).isEmpty then none else some (dropIdleEnd (dropIdleEnd ss).dropLast)

/-- The path of the folder that holds a path; the root and the empty path have none. A dot at the
front of a relative path counts as a segment. -/
def parent (path : String) : Option String :=
  match segments path.toList with
  | [] :: rest =>
    if path.isEmpty then none
    else (dropLastSegment? rest).map fun ss => String.ofList ('/' :: ofSegments ss)
  | ['.'] :: rest =>
    match dropLastSegment? rest with
    | some ss => some (String.ofList (ofSegments (['.'] :: ss)))
    | none => some ""
  | ss => (dropLastSegment? ss).map fun ss => String.ofList (ofSegments ss)

/-- The extension of a file name: what follows its last dot, unless that dot is its first character.
-/
def extension? (name : String) : Option String :=
  let backwards := name.toList.reverse
  match backwards.dropWhile (· ≠ '.') with
  | _ :: _ :: _ => some (String.ofList (backwards.takeWhile (· ≠ '.')).reverse)
  | _ => none

end ShopLens.Path
