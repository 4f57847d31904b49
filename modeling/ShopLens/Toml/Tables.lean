import ShopLens.Document

/-!
# ShopLens.Toml.Tables

Tables while a TOML text is read. A table can be made by a header of its own, by the header of a table
in it, or by a key with dots; which of these it was decides what may still be added to it. Headers and
keys never replace anything.
-/

namespace ShopLens.Toml

/-- How a table came about. -/
inductive Origin where
  | header
  /-- By the header of a table within it. -/
  | innerHeader
  /-- By a key with dots. -/
  | dottedKey
deriving DecidableEq, Repr

/-- What stands under a name while a text is read. -/
inductive Node where
  | value (d : Document)
  | table (origin : Origin) (entries : List (String × Node))
  | tables (items : List (List (String × Node)))

/-- What a table holds while a text is read. -/
abbrev Entries : Type := List (String × Node)

/-- Puts something under a name that is there already. -/
def replaceNode (name : String) (node : Node) (es : Entries) : Entries :=
  es.map fun (n, old) => if n = name then (n, node) else (n, old)

/-- Changes a table at the end of a path; tables on the path are made with the origin `making`. A path
leads into the last one of a list of tables. Keys do not lead into tables that have a header. -/
def within (making : Origin) (path : List String) (change : Origin → Entries → Option Entries)
    (origin : Origin) (es : Entries) : Option Entries :=
  match path with
  | [] => change origin es
  | name :: path =>
    match es.lookup name with
    | none =>
      (within making path change making []).map fun inner => es ++ [(name, .table making inner)]
    | some (.value _) => none
    | some (.table inner entries) =>
      if making = .dottedKey ∧ inner = .header then none
      else
        (within making path change inner entries).map fun changed =>
          replaceNode name (.table inner changed) es
    | some (.tables items) =>
      (within making path change .header (items.getLast?.getD [])).map fun changed =>
        replaceNode name (.tables (items.dropLast ++ [changed])) es

/-- The last part of a path and the parts before it. -/
def splitLast (path : List String) : List String × String := (path.dropLast, path.getLastD "")

/-- Gives a value to a key, seen from a table. The table that takes the value must be that table itself
or have been made by keys with dots. -/
def assign (key : List String) (d : Document) (origin : Origin) (es : Entries) : Option Entries :=
  let (path, name) := splitLast key
  within .dottedKey path (fun origin es =>
    if (origin = .dottedKey) = path.isEmpty then none
    else if (es.lookup name).isSome then none
    else some (es ++ [(name, .value d)])) origin es

/-- Makes the table of a header. -/
def openTable (header : List String) (es : Entries) : Option Entries :=
  let (path, name) := splitLast header
  within .innerHeader path (fun _ es =>
    match es.lookup name with
    | none => some (es ++ [(name, .table .header [])])
    | some (.table .innerHeader entries) => some (replaceNode name (.table .header entries) es)
    | some _ => none) .header es

/-- Makes the next table of a list of tables. -/
def openListed (header : List String) (es : Entries) : Option Entries :=
  let (path, name) := splitLast header
  within .innerHeader path (fun _ es =>
    match es.lookup name with
    | none => some (es ++ [(name, .tables [[]])])
    | some (.tables items) => some (replaceNode name (.tables (items ++ [[]])) es)
    | some _ => none) .header es

/-- Gives a value to a key, seen from the table of a header. -/
def assignUnder (header key : List String) (d : Document) (es : Entries) : Option Entries :=
  within .innerHeader header (assign key d) .header es

mutual

/-- What stands under a name when the text has been read. -/
def nodeDocument : Node → Document
  | .value d => d
  | .table _ entries => .table (documents entries)
  | .tables items => .list (listed items)

/-- What a table holds when the text has been read. -/
def documents : List (String × Node) → List (String × Document)
  | [] => []
  | (name, node) :: rest => (name, nodeDocument node) :: documents rest

/-- The tables of a list when the text has been read. -/
def listed : List (List (String × Node)) → List Document
  | [] => []
  | entries :: rest => .table (documents entries) :: listed rest

end

end ShopLens.Toml
