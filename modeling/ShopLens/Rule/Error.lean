import ShopLens.Files.System
import ShopLens.Filter.Error
import ShopLens.Text.Quoted

/-!
# ShopLens.Rule.Error

What can be wrong with rules and their files. Only a folder that cannot be read keeps the other rules
from working.
-/

namespace ShopLens

open ShopLens.Filter (FilterError)

/-- What is wrong with a rule or with a rule folder. -/
inductive RuleError where
  | rejected (rule : String) (error : FilterError)
  | unreadable (rule : String) (message : String)
  | missingFile (rule : String) (path : String)
  | missingFolder (path : String)
  | folder (path : String) (error : FileError)
deriving DecidableEq

/-- The wording of a rule error. -/
def RuleError.message : RuleError → String
  | rejected rule error => s!"rule `{rule}` failed to compile: {error.message}"
  | unreadable rule message => s!"rule `{rule}` could not be read: {message}"
  | missingFile rule path => s!"rule file for `{rule}` not found at {Text.quoted path}"
  | missingFolder path => s!"custom rule folder {Text.quoted path} does not exist"
  | folder path error => s!"IO error reading {Text.quoted path}: {error.message}"

end ShopLens
