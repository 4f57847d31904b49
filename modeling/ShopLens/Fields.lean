import ShopLens.Text.Case
import ShopLens.Value

/-!
# ShopLens.Fields

Named values as the game reports them, looked up without regard to the case of ASCII letters.

* `get?_insert`: a value is found under every spelling of the name it was stored under, and the
  latest one stored counts.
* The `first…?` searches take a list of candidate names and find the first that is present with a
  value of the wanted type; a candidate that is absent or of another type is passed over.
-/

namespace ShopLens

/-- A map from names to values. -/
structure Fields where
  /-- The values under their names in small letters, the latest first. -/
  entries : List (String × Value)

namespace Fields

/-- No fields. -/
def empty : Fields := ⟨[]⟩

/-- Stores a value under a name, in place of the value that is there. -/
def insert (fs : Fields) (name : String) (value : Value) : Fields :=
  ⟨(Text.lowered name, value) :: fs.entries⟩

/-- The fields with the given names and values, later ones in place of earlier ones. -/
def ofList (pairs : List (String × Value)) : Fields :=
  pairs.foldl (fun fs (name, value) => fs.insert name value) empty

/-- The value under a name. -/
def get? (fs : Fields) (name : String) : Option Value := fs.entries.lookup (Text.lowered name)

/-- A map stands for the values that are found in it. -/
instance : Coe Fields (String → Option Value) := ⟨get?⟩

/-- The first integer among the named fields. -/
def firstInt? (fs : Fields) (names : List String) : Option Int :=
  names.findSome? fun name => (fs.get? name).bind Value.asInt?

/-- The first truth value among the named fields. -/
def firstBool? (fs : Fields) (names : List String) : Option Bool :=
  names.findSome? fun name => (fs.get? name).bind Value.asBool?

/-- The first text among the named fields. -/
def firstStr? (fs : Fields) (names : List String) : Option String :=
  names.findSome? fun name => (fs.get? name).bind Value.asStr?

@[simp] theorem get?_empty (name : String) : empty.get? name = none := rfl

theorem get?_insert (fs : Fields) (name other : String) (value : Value) :
    (fs.insert name value).get? other =
      if Text.lowered other = Text.lowered name then some value else fs.get? other := by
  simp only [get?, insert, List.lookup_cons]
  by_cases h : Text.lowered other = Text.lowered name
  · simp [h]
  · simp [beq_false_of_ne h, h]

end Fields

end ShopLens
