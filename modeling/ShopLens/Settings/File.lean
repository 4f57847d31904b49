import ShopLens.Files.Path
import ShopLens.Files.System
import ShopLens.Settings.Decode
import ShopLens.Settings.Encode
import ShopLens.Toml.Read

/-!
# ShopLens.Settings.File

The file with the settings, and where it stands. If it is not there it is to be written with the
settings before anything is set; a file that cannot be read or understood is left alone.
-/

namespace ShopLens

/-! ## places -/

/-- The name of the program's own folder. -/
def programFolder : String := "npcinv"

/-- The settings file in a folder for settings of all programs. -/
def settingsPath (home : String) : String :=
  Path.join (Path.join home programFolder) "default-config.toml"

/-- The rule folder in a folder for settings of all programs. -/
def usualRuleFolder (home : String) : String := Path.join (Path.join home programFolder) "rules"

/-! ## reading -/

/-- Why settings cannot be had. -/
inductive SettingsError where
  | notOpened
  | notRead
  | badData
  | folderNotMade
  | notWritten
deriving DecidableEq, Repr

/-- The wording of a settings error. -/
def SettingsError.message (e : SettingsError) : String :=
  "failed to load settings: " ++ match e with
    | notOpened => "Failed to load configuration file"
    | notRead => "Failed to read configuration file"
    | badData => "Bad TOML data"
    | folderNotMade => "Failed to create directory"
    | notWritten => "Failed to write configuration file"

/-- The settings in a TOML text. -/
def Settings.ofToml? (text : String) : Option Settings :=
  ((Toml.read text).bind (Settings.ofDocument? false {})).map Settings.normalized

/-- What a look at the settings file shows. -/
inductive SettingsFile where
  | loaded (settings : Settings)
  | missing
  | unusable (e : SettingsError)

/-- Looks at a settings file. -/
def SettingsFile.open (fs : FileSystem) (path : String) : SettingsFile :=
  match fs.look path with
  | .error .notFound => missing
  | .error _ => unusable .notOpened
  | .ok (.folder _) => unusable .notRead
  | .ok (.file content) =>
    match String.fromUTF8? content with
    | none => unusable .notRead
    | some text =>
      match Settings.ofToml? text with
      | some settings => loaded settings
      | none => unusable .badData

/-- The settings, and the text to write if the file is not there. -/
def SettingsFile.result : SettingsFile → Except SettingsError (Settings × Option String)
  | loaded settings => .ok (settings, none)
  | missing => .ok (({} : Settings).normalized, some ({} : Settings).toml)
  | unusable e => .error e

end ShopLens
