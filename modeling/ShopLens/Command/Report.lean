/-!
# ShopLens.Command.Report

What a command of the command line leaves behind: two texts and an exit code.
-/

namespace ShopLens

/-- The outcome of a command. -/
structure Report where
  out : String
  err : String
  /-- Its exit code: 0 if all is well, 1 if something does not hold, 2 after an error. -/
  exit : UInt8
deriving DecidableEq, Repr

namespace Report

/-- The outcome of a command that answers whether something holds. -/
def answer (out : String) (holds : Bool) : Report := ⟨out, "", if holds then 0 else 1⟩

/-- The outcome of a command that an error ends. -/
def failure (out message : String) : Report := ⟨out, "error: " ++ message ++ "\n", 2⟩

end Report

/-- Lines of a text. -/
def unlines (lines : List String) : String := String.join (lines.map (· ++ "\n"))

end ShopLens
