/-!
# ShopLens.Text.Case

Comparing texts without regard to the case of ASCII letters. Letters beyond ASCII keep their case, so
`É` and `é` differ.
-/

namespace ShopLens.Text

/-- The characters with every ASCII capital made small. -/
def lower (cs : List Char) : List Char := cs.map Char.toLower

/-- The string with every ASCII capital made small. -/
def lowered (s : String) : String := String.ofList (lower s.toList)

/-- Whether two strings are equal up to the case of ASCII letters. -/
def sameLetters (s t : String) : Bool := lowered s == lowered t

@[simp] theorem lower_nil : lower [] = [] := rfl

@[simp] theorem lower_cons (c : Char) (cs : List Char) : lower (c :: cs) = c.toLower :: lower cs :=
  rfl

@[simp] theorem lower_append (cs ds : List Char) : lower (cs ++ ds) = lower cs ++ lower ds :=
  List.map_append

theorem sameLetters_iff {s t : String} : sameLetters s t = true ↔ lowered s = lowered t := by
  simp [sameLetters]

end ShopLens.Text
