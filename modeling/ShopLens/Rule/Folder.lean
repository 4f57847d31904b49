import ShopLens.Files.Path
import ShopLens.Rule.Binding
import ShopLens.Text.Blank
import ShopLens.Text.Case

/-!
# ShopLens.Rule.Folder

Rule files in a folder. The remembered rules whose file is there stay, in their order; files that none
of them names follow, by name and switched off; the texts of the rules in use are read.
-/

namespace ShopLens

/-- Where rule files are looked for. -/
structure RuleFolder where
  configFolder : String
  /-- The folder that the player chose, seen from the folder above `configFolder`. -/
  customFolder : Option String

/-- What was found in a rule folder. -/
structure LoadedRules where
  folder : String
  entries : List RuleEntry
  sources : List RuleSource
  errors : List RuleError

/-- The extension of rule files. -/
def ruleExtension : String := "ifl"

namespace RuleFolder

/-- The folder `configFolder`, or the one that the player chose; a blank choice is none. -/
def choose (configFolder customFolder : String) : RuleFolder :=
  let name := Text.trimmed customFolder
  ⟨configFolder, if name.isEmpty then none else some name⟩

/-- The path of the folder that the player chose. -/
def customPath? (f : RuleFolder) : Option String :=
  f.customFolder.map (Path.join ((Path.parent f.configFolder).getD f.configFolder))

/-- The folder to use: the one that the player chose if it is there. -/
def resolve (f : RuleFolder) (fs : FileSystem) : String × List RuleError :=
  match f.customPath? with
  | none => (f.configFolder, [])
  | some path =>
    if fs.isFolder path then (path, []) else (f.configFolder, [.missingFolder path])

/-- Whether a name in a folder is that of a rule file. -/
def isRuleFile (fs : FileSystem) (folder name : String) : Bool :=
  fs.isFile (Path.join folder name)
    && (Path.extension? name).any (Text.sameLetters · ruleExtension)

/-- The names of the rule files in a folder, in order. -/
def discover (fs : FileSystem) (folder : String) : Except RuleError (List String) :=
  match fs.readFolder folder with
  | .error e => .error (.folder folder e)
  | .ok names => .ok ((names.filter (isRuleFile fs folder)).mergeSort (· ≤ ·))

/-- The remembered rules whose file is there, and an error for each of the others. -/
def keep (fs : FileSystem) (folder : String) (entries : List RuleEntry) :
    List RuleEntry × List RuleError :=
  let there (r : RuleEntry) : Bool := fs.isFile (Path.join folder r.location)
  (entries.filter there,
    (entries.filter (!there ·)).map fun r => .missingFile r.name (Path.join folder r.location))

/-- Adds a rule file that no rule names yet, in any letter case. -/
def addNew (entries : List RuleEntry) (name : String) : List RuleEntry :=
  if entries.any (Text.sameLetters ·.location name) then entries
  else entries ++ [{ name, location := name }]

/-- A rule with its text, which is read if the rule is in use. -/
def readSource (fs : FileSystem) (folder : String) (r : RuleEntry) : RuleSource :=
  if r.enabled then
    match fs.readText (Path.join folder r.location) with
    | .ok text => ⟨r, .loaded text⟩
    | .error e => ⟨r, .unreadable e.message⟩
  else ⟨r, .notLoaded⟩

/-- Looks for the remembered rules and for new ones. -/
def load (f : RuleFolder) (fs : FileSystem) (remembered : List RuleEntry) :
    Except RuleError LoadedRules :=
  let (folder, folderErrors) := f.resolve fs
  match discover fs folder with
  | .error e => .error e
  | .ok names =>
    let (kept, missing) := keep fs folder remembered
    let entries := names.foldl addNew kept
    .ok ⟨folder, entries, entries.map (readSource fs folder), folderErrors ++ missing⟩

end RuleFolder

end ShopLens
