import ShopLens.Command.Arguments
import ShopLens.Command.Check
import ShopLens.Command.ShowSettings

/-!
# ShopLens.Main

The command line: it reads files, has the commands make their reports, and prints them.
-/

namespace ShopLens.Main

/-- A file error for an error of the system. -/
def fileError : IO.Error → FileError
  | .noFileOrDirectory .. => .notFound
  | .permissionDenied .. => .denied
  | e => .other (toString e)

/-- What stands at a path on the disk. -/
def look (path : String) : IO (Except FileError Entry) := do
  try
    let names ← (← IO.FS.realPath path).readDir
    return .ok (.folder (names.toList.map (·.fileName)))
  catch _ =>
    try
      return .ok (.file (← IO.FS.readBinFile path))
    catch e =>
      return .error (fileError e)

/-- The folders on the disk with what stands directly in them. -/
def snapshot (folders : List String) : IO FileSystem := do
  let mut entries := []
  for folder in folders do
    let found ← look folder
    entries := (folder, found) :: entries
    if let .ok (.folder names) := found then
      for name in names do
        let path := Path.join folder name
        entries := (path, ← look path) :: entries
  return .ofList entries

/-- The folder for settings of all programs. -/
def configHome : IO (Option String) := do
  match ← IO.getEnv "XDG_CONFIG_HOME" with
  | some home => if home.startsWith "/" then return some home
  | none => pure ()
  return (← IO.getEnv "HOME").map (Path.join · ".config")

/-- The settings on the disk. If there are none, the file is made. -/
def loadSettings (path : String) : IO (Except SettingsError Settings) := do
  match (SettingsFile.open (.ofList [(path, ← look path)]) path).result with
  | .error e => return .error e
  | .ok (settings, none) => return .ok settings
  | .ok (settings, some text) =>
    try
      IO.FS.createDirAll ((Path.parent path).getD "")
    catch _ => return .error .folderNotMade
    try
      IO.FS.writeFile path text
      return .ok settings
    catch _ => return .error .notWritten

/-- Carries out what the command line asks for. -/
def run : Request → IO Report
  | .check path custom verbose => do
    let folder : RuleFolder :=
      match custom with
      | some name => .choose path name
      | none => ⟨path, none⟩
    return checkFolder (← snapshot (path :: folder.customPath?.toList)) folder verbose
  | .eval trial => return trial.report
  | .settings => do
    match ← configHome with
    | some home => return showSettings home (← loadSettings (settingsPath home))
    | none => return .failure "" "no configuration directory on this platform"

end ShopLens.Main

/-- The program. -/
def main (args : List String) : IO UInt32 := do
  match ShopLens.Request.parse args with
  | .error message =>
    IO.eprintln ("error: " ++ message)
    return 2
  | .ok request =>
    let report ← ShopLens.Main.run request
    IO.print report.out
    IO.eprint report.err
    return report.exit.toUInt32
