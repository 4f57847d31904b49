import ShopLens.Item
import ShopLens.Text.Search

/-!
# ShopLens.Affix

How many more prefixes and suffixes an item may get: the number its category and rarity allow, less
the number it has.

* The category comes from the tags of the base type and from the metadata path.
* The number it has comes from a count among its properties, else from classifying each modifier.
* Only items on a real tab are looked at: for the lists of a vendor, for an item that is not live and
  for unreadable modifiers the answer is 0.
-/

namespace ShopLens

/-! ## kinds and rarities -/

/-- The two kinds of affix. -/
inductive AffixKind where
  | prefixMod
  | suffixMod
deriving DecidableEq, Repr

namespace AffixKind

/-- The word that names the kind in descriptions of modifiers. -/
def keyword : AffixKind → String
  | prefixMod => "prefix"
  | suffixMod => "suffix"

/-- Properties of an item that may hold the number of its affixes of this kind. -/
def countFields : AffixKind → List String
  | prefixMod => ["PrefixesCount", "PrefixCount", "NumPrefixes"]
  | suffixMod => ["SuffixesCount", "SuffixCount", "NumSuffixes"]

/-- The property of a modifier that marks it as being of this kind. -/
def flagField : AffixKind → String
  | prefixMod => "IsPrefix"
  | suffixMod => "IsSuffix"

/-- The numeric generation type of modifiers of this kind. -/
def generationId : AffixKind → Int
  | prefixMod => 1
  | suffixMod => 2

end AffixKind

/-- The rarity of an item. -/
inductive Rarity where
  | normal
  | magic
  | rare
  | unique
deriving DecidableEq, Repr

namespace Rarity

/-- The rarity with a numeric code. -/
def ofCode? (code : Int) : Option Rarity :=
  if code = 0 then some normal
  else if code = 1 then some magic
  else if code = 2 then some rare
  else if code = 3 then some unique
  else none

/-- The rarity with a name, in any letter case. -/
def ofName? (name : String) : Option Rarity :=
  let word := Text.lowered name
  if word = "normal" then some normal
  else if word = "magic" then some magic
  else if word = "rare" then some rare
  else if word = "unique" then some unique
  else none

/-- The name of a rarity. -/
def name : Rarity → String
  | normal => "Normal"
  | magic => "Magic"
  | rare => "Rare"
  | unique => "Unique"

/-- The part of `allowed` that an item of this rarity can carry. -/
def cap (r : Rarity) (allowed : Nat) : Nat :=
  match r with
  | normal => 0
  | magic => min allowed 1
  | rare => allowed
  | unique => 0

end Rarity

/-! ## what an item has -/

/-- The greatest number of affixes that is told apart. -/
def maxAffixes : Nat := 0xffffffff

/-- Whether a description of a modifier names the kind, in any letter case. -/
def AffixKind.named (k : AffixKind) (description : String) : Bool :=
  Text.within k.keyword (Text.lowered description)

/-- Properties that may hold the rarity of an item. -/
def rarityFields : List String := ["ItemRarity", "Rarity"]

/-- Properties of a definition that may hold its numeric generation type. -/
def generationFields : List String := ["GenerationTypeId", "GenerationId", "GenType"]

/-- The rarity among the properties of an item: by code if there is an integer, else by name. -/
def Mods.rarity? (m : Mods) : Option Rarity :=
  match m.fields.firstInt? rarityFields with
  | some code => Rarity.ofCode? code
  | none => (m.fields.firstStr? rarityFields).bind Rarity.ofName?

/-- Whether a property of the definition of a modifier describes it as being of a kind. -/
def Modifier.isDescribedAs (m : Modifier) (property : String) (k : AffixKind) : Bool :=
  (m.definition.bind (·.firstStr? [property])).any k.named

/-- Whether a modifier is of a kind by any of the signs the game may give: the affix type of its
definition, a flag, the generation type of its definition in words or as a number. -/
def Modifier.isOfKind (m : Modifier) (k : AffixKind) : Bool :=
  m.isDescribedAs "AffixType" k
    || m.fields.firstBool? [k.flagField] == some true
    || m.isDescribedAs "GenerationType" k
    || m.definition.bind (·.firstInt? generationFields) == some k.generationId

/-- The number of affixes of a kind on an item. A count among its properties goes before its
modifiers; a negative count is 0. -/
def Mods.used (m : Mods) (k : AffixKind) : Nat :=
  match m.fields.firstInt? k.countFields with
  | some count => min count.toNat maxAffixes
  | none => (m.modifiers.filter (·.isOfKind k)).length

/-! ## what an item may have -/

/-- Affixes of each kind by category, before rarity is considered. -/
structure AffixLimits where
  flask : UInt8 := 1
  jewel : UInt8 := 2
  other : UInt8 := 3
deriving DecidableEq, Repr

/-- Words in a metadata path and the tags that they imply. -/
def pathTags : List (String × String) :=
  [("flask", "flask"), ("jewel", "jewel"), ("abyss", "abyssjewel"), ("cluster", "clusterjewel")]

/-- The tags of the base type and those implied by the path; none for an item without a path. -/
def Item.allTags (i : Item) : List String :=
  match i.path with
  | none => []
  | some path =>
    if path.isEmpty then []
    else
      i.tags.orEmpty
        ++ (pathTags.filter fun (word, _) => Text.within word (Text.lowered path)).map Prod.snd

/-- Whether an item has a tag, in any letter case. -/
def Item.hasTag (i : Item) (tag : String) : Bool := i.allTags.any (Text.sameLetters · tag)

namespace AffixLimits

/-- The limit for the category of an item. -/
def base (limits : AffixLimits) (i : Item) : Nat :=
  if i.hasTag "flask" then limits.flask.toNat
  else if i.hasTag "jewel" || i.hasTag "abyssjewel" || i.hasTag "clusterjewel" then
    limits.jewel.toNat
  else limits.other.toNat

/-- The number of affixes of each kind that an item may have. An unknown rarity leaves the limit of
the category. -/
def allowed (limits : AffixLimits) (i : Item) (m : Mods) : Nat :=
  match m.rarity? with
  | some r => r.cap (limits.base i)
  | none => limits.base i

/-- The number of affixes of a kind that an item can still get. -/
def openCount (limits : AffixLimits) (l : Listing) (k : AffixKind) : Nat :=
  if l.tab < 0 || !l.isLive then 0
  else
    match l.item.mods with
    | .ok m => limits.allowed l.item m - m.used k
    | .error _ => 0

end AffixLimits

end ShopLens
