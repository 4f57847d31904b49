import Mathlib.Data.List.Forall2
import ShopLens.Affix

/-!
# ShopLens.Proofs.Affix.LetterCase

Affixes are counted without regard to the case of ASCII letters. What the game reports of an item can be
written in other letters (`Item.Recased`): its path, its tags, the names in its records, and the texts
in them, among these the name of the rarity and the descriptions of modifiers.

The argument follows the data. The records of two such items hold values that differ in letters only,
also where several names of one report become the same name (`Fields.Recased.get?`); so the first integer
or truth value among some names is the same, and the first text is the same up to its letters. From there
each rule of counting sees no difference, up to `AffixLimits.counts_recased`.
-/

namespace ShopLens

/-! ## the same in other letters -/

/-- Two texts that differ at most in the case of ASCII letters. -/
def Text.Recased (s t : String) : Prop :=
  List.Forall₂ (fun c d => c.toLower = d.toLower) s.toList t.toList

/-- Two values that differ at most in the case of letters in a text. -/
inductive Value.Recased : Value → Value → Prop where
  | same (v : Value) : Recased v v
  | text {s t : String} (h : Text.Recased s t) : Recased (.str s) (.str t)

/-- A record holds under every name what a report says. -/
def Fields.Holds (fs : Fields) (report : List (String × Value)) : Prop :=
  ∀ name, fs.get? name = (Fields.ofList report).get? name

/-- Two records of one report that is written in other letters. -/
def Fields.Recased (fs gs : Fields) : Prop :=
  ∃ report report' : List (String × Value), fs.Holds report ∧ gs.Holds report' ∧
    List.Forall₂ (fun p q => Text.Recased p.1 q.1 ∧ p.2.Recased q.2) report report'

/-- Two readings that both failed, or gave things that are related. -/
inductive Read.Rel {α : Type} (R : α → α → Prop) : Read α → Read α → Prop where
  | ok {a b : α} (h : R a b) : Rel R (.ok a) (.ok b)
  | error (e e' : ReadError) : Rel R (.error e) (.error e')

/-- A modifier in other letters. -/
structure Modifier.Recased (m n : Modifier) : Prop where
  fields : m.fields.Recased n.fields
  definition : Option.Rel Fields.Recased m.definition n.definition

/-- The modifiers of an item in other letters. -/
structure Mods.Recased (m n : Mods) : Prop where
  fields : m.fields.Recased n.fields
  modifiers : List.Forall₂ Modifier.Recased m.modifiers n.modifiers

/-- An item in other letters, in all that affixes are counted from. -/
structure Item.Recased (i j : Item) : Prop where
  address : i.address = j.address
  valid : i.valid = j.valid
  path : Option.Rel Text.Recased i.path j.path
  tags : Read.Rel (List.Forall₂ Text.Recased) i.tags j.tags
  mods : Read.Rel Mods.Recased i.mods j.mods

/-- A listing of an item in other letters, on the same tab. -/
structure Listing.Recased (l l' : Listing) : Prop where
  item : l.item.Recased l'.item
  tab : l.tab = l'.tab

/-! ## texts -/

namespace Text

variable {s t : String}

theorem recased_iff : Recased s t ↔ lowered s = lowered t := by
  rw [lowered, lowered, String.ofList_inj, lower, lower, ← List.forall₂_eq_eq_eq,
    List.forall₂_map_left_iff, List.forall₂_map_right_iff, Recased]

instance : Decidable (Recased s t) := decidable_of_iff _ recased_iff.symm

/-- A text is empty in all letters or in none. -/
theorem Recased.isEmpty (h : Recased s t) : s.isEmpty = t.isEmpty := by
  rw [Bool.eq_iff_iff, String.isEmpty_iff, String.isEmpty_iff, ← String.toList_eq_nil_iff,
    ← String.toList_eq_nil_iff]
  unfold Recased at h
  constructor
  · intro hs
    rwa [hs, List.forall₂_nil_left_iff] at h
  · intro ht
    rwa [ht, List.forall₂_nil_right_iff] at h

end Text

/-! ## values that may be absent -/

section Options

variable {α β γ δ : Type} {R : α → β → Prop} {S : γ → δ → Prop} {a : Option α} {b : Option β}

theorem rel_bind {f : α → Option γ} {g : β → Option δ} (h : Option.Rel R a b)
    (hfg : ∀ {x : α} {y : β}, R x y → Option.Rel S (f x) (g y)) :
    Option.Rel S (a.bind f) (b.bind g) := by
  cases h with
  | none => exact .none
  | some hxy => exact hfg hxy

theorem bind_eq_of_rel {f : α → Option γ} {g : β → Option γ} (h : Option.Rel R a b)
    (hfg : ∀ {x : α} {y : β}, R x y → f x = g y) : a.bind f = b.bind g := by
  cases h with
  | none => rfl
  | some hxy => exact hfg hxy

end Options

/-! ## records -/

namespace Value.Recased

variable {v w : Value}

theorem asInt? (h : v.Recased w) : v.asInt? = w.asInt? := by
  cases h <;> rfl

theorem asBool? (h : v.Recased w) : v.asBool? = w.asBool? := by
  cases h <;> rfl

theorem asStr? (h : v.Recased w) : Option.Rel Text.Recased v.asStr? w.asStr? := by
  cases h with
  | same v =>
      cases v with
      | str s => exact .some (Text.recased_iff.mpr rfl)
      | _ => exact .none
  | text h => exact .some h

end Value.Recased

namespace Fields.Recased

variable {fs gs : Fields}

theorem ofList {report report' : List (String × Value)}
    (h : List.Forall₂ (fun p q => Text.Recased p.1 q.1 ∧ p.2.Recased q.2) report report') :
    (Fields.ofList report).Recased (Fields.ofList report') :=
  ⟨report, report', fun _ => rfl, fun _ => rfl, h⟩

/-- **What a record holds** under a name is the same up to letters. A name that is reported again in other
letters takes the place of the one before on both sides. -/
theorem get? (h : fs.Recased gs) (name : String) :
    Option.Rel Value.Recased (fs.get? name) (gs.get? name) := by
  obtain ⟨report, report', hfs, hgs, hreports⟩ := h
  have hinsert : ∀ ⦃fs gs : Fields⦄,
      (∀ name, Option.Rel Value.Recased (fs.get? name) (gs.get? name)) →
      ∀ ⦃p q : String × Value⦄, Text.Recased p.1 q.1 ∧ p.2.Recased q.2 →
      ∀ name, Option.Rel Value.Recased ((fs.insert p.1 p.2).get? name)
        ((gs.insert q.1 q.2).get? name) := by
    intro fs gs hkept p q ⟨hname, hvalue⟩ name
    rw [get?_insert, get?_insert, Text.recased_iff.mp hname]
    split
    · exact .some hvalue
    · exact hkept name
  have hempty : ∀ name, Option.Rel Value.Recased (empty.get? name) (empty.get? name) :=
    fun _ => .none
  rw [hfs, hgs]
  exact List.rel_foldl hinsert hempty hreports name

/-- A search that sees no letters finds the same. -/
theorem findSome?_eq {β : Type} (h : fs.Recased gs) {view : Value → Option β}
    (hview : ∀ {v w : Value}, v.Recased w → view v = view w) (names : List String) :
    (names.findSome? fun name => (fs.get? name).bind view) =
      names.findSome? fun name => (gs.get? name).bind view := by
  congr 1
  funext name
  exact bind_eq_of_rel (h.get? name) hview

theorem firstInt? (h : fs.Recased gs) (names : List String) :
    fs.firstInt? names = gs.firstInt? names :=
  h.findSome?_eq Value.Recased.asInt? names

theorem firstBool? (h : fs.Recased gs) (names : List String) :
    fs.firstBool? names = gs.firstBool? names :=
  h.findSome?_eq Value.Recased.asBool? names

/-- The first text among some names is the same up to its letters. -/
theorem firstStr? (h : fs.Recased gs) (names : List String) :
    Option.Rel Text.Recased (fs.firstStr? names) (gs.firstStr? names) := by
  induction names with
  | nil => exact .none
  | cons name names ih =>
      have htext : Option.Rel Text.Recased ((fs.get? name).bind Value.asStr?)
          ((gs.get? name).bind Value.asStr?) := rel_bind (h.get? name) Value.Recased.asStr?
      simp only [Fields.firstStr?, List.findSome?_cons]
      match (fs.get? name).bind Value.asStr?, (gs.get? name).bind Value.asStr?, htext with
      | _, _, .none => exact ih
      | _, _, .some htext => exact .some htext

end Fields.Recased

/-! ## what an item has -/

theorem AffixKind.named_recased (k : AffixKind) {s t : String} (h : Text.Recased s t) :
    k.named s = k.named t := by
  rw [named, named, Text.recased_iff.mp h]

theorem Rarity.ofName?_recased {s t : String} (h : Text.Recased s t) : ofName? s = ofName? t := by
  rw [ofName?, ofName?, Text.recased_iff.mp h]

namespace Modifier.Recased

variable {m n : Modifier}

theorem isDescribedAs (h : m.Recased n) (property : String) (k : AffixKind) :
    m.isDescribedAs property k = n.isDescribedAs property k := by
  have htext : Option.Rel Text.Recased (m.definition.bind (·.firstStr? [property]))
      (n.definition.bind (·.firstStr? [property])) :=
    rel_bind h.definition fun hdefinition => hdefinition.firstStr? [property]
  rw [Modifier.isDescribedAs, Modifier.isDescribedAs]
  match m.definition.bind _, n.definition.bind _, htext with
  | _, _, .none => rfl
  | _, _, .some htext => exact k.named_recased htext

/-- A modifier is of the same kinds in all letters. -/
theorem isOfKind (h : m.Recased n) (k : AffixKind) : m.isOfKind k = n.isOfKind k := by
  have hid : m.definition.bind (·.firstInt? generationFields) =
      n.definition.bind (·.firstInt? generationFields) :=
    bind_eq_of_rel h.definition fun hdefinition => hdefinition.firstInt? generationFields
  rw [Modifier.isOfKind, Modifier.isOfKind, h.isDescribedAs, h.isDescribedAs, h.fields.firstBool?, hid]

end Modifier.Recased

namespace Mods.Recased

variable {m n : Mods}

theorem rarity? (h : m.Recased n) : m.rarity? = n.rarity? := by
  rw [Mods.rarity?, Mods.rarity?, h.fields.firstInt?]
  split
  · rfl
  · exact bind_eq_of_rel (h.fields.firstStr? rarityFields) Rarity.ofName?_recased

/-- An item has as many affixes of a kind in all letters. -/
theorem used (h : m.Recased n) (k : AffixKind) : m.used k = n.used k := by
  rw [Mods.used, Mods.used, h.fields.firstInt?]
  split
  · rfl
  · have hkind : ∀ ⦃m n : Modifier⦄, m.Recased n → (m.isOfKind k = true ↔ n.isOfKind k = true) :=
      fun _ _ hmodifier => by rw [hmodifier.isOfKind]
    exact (List.rel_filter hkind h.modifiers).length_eq

end Mods.Recased

/-! ## what an item may have -/

namespace Item.Recased

variable {i j : Item}

theorem isLive (h : i.Recased j) : i.isLive = j.isLive := by
  rw [Item.isLive, Item.isLive, h.address, h.valid]

/-- The words in a path are found in all letters, so the same tags are added to those of the base
type. -/
theorem allTags (h : i.Recased j) : List.Forall₂ Text.Recased i.allTags j.allTags := by
  have htags : List.Forall₂ Text.Recased i.tags.orEmpty j.tags.orEmpty := by
    match i.tags, j.tags, h.tags with
    | _, _, .ok htags => exact htags
    | _, _, .error _ _ => exact .nil
  unfold Item.allTags
  match i.path, j.path, h.path with
  | _, _, .none => exact .nil
  | _, _, .some hpath =>
      dsimp only
      rw [hpath.isEmpty, Text.recased_iff.mp hpath]
      split
      · exact .nil
      · refine List.rel_append htags ?_
        exact List.forall₂_same.mpr fun _ _ => Text.recased_iff.mpr rfl

theorem hasTag (h : i.Recased j) (tag : String) : i.hasTag tag = j.hasTag tag := by
  unfold Item.hasTag
  have htags := h.allTags
  generalize i.allTags = tags at htags
  generalize j.allTags = tags' at htags
  induction htags with
  | nil => rfl
  | cons htag _ ih =>
      rw [List.any_cons, List.any_cons, ih, Text.sameLetters, Text.sameLetters,
        Text.recased_iff.mp htag]

end Item.Recased

namespace AffixLimits

variable (limits : AffixLimits)

theorem base_recased {i j : Item} (h : i.Recased j) : limits.base i = limits.base j := by
  simp only [base, h.hasTag]

theorem allowed_recased {i j : Item} {m n : Mods} (hitem : i.Recased j) (hmods : m.Recased n) :
    limits.allowed i m = limits.allowed j n := by
  rw [allowed, allowed, hmods.rarity?, limits.base_recased hitem]

/-- **Letter case does not count.** Of two listings of an item in other letters, as many affixes are
allowed, used and open. -/
theorem counts_recased (k : AffixKind) {l l' : Listing} (h : l.Recased l') :
    (∀ m n : Mods, m.Recased n →
        limits.allowed l.item m = limits.allowed l'.item n ∧ m.used k = n.used k) ∧
      limits.openCount l k = limits.openCount l' k := by
  refine ⟨fun m n hmods => ⟨limits.allowed_recased h.item hmods, hmods.used k⟩, ?_⟩
  rw [openCount, openCount, h.tab, Listing.isLive, Listing.isLive, h.item.isLive]
  match l.item.mods, l'.item.mods, h.item.mods with
  | _, _, .error _ _ => rfl
  | _, _, .ok hmods =>
      dsimp only
      rw [limits.allowed_recased h.item hmods, hmods.used k]

/-- A jewel whose rarity is reported twice, and the same in capitals. -/
theorem counts_of_capitals :
    let mods : Mods := ⟨.ofList [("rarity", .str "Magic"), ("Rarity", .str "Rare")],
      [⟨.empty, some (.ofList [("AffixType", .str "Prefix")])⟩]⟩
    let jewel :=
      { Item.plain 1 "Items/Jewels/Cobalt" "Cobalt" with tags := .ok ["Jewel"], mods := .ok mods }
    let mods' : Mods := ⟨.ofList [("RARITY", .str "MAGIC"), ("RARITY", .str "RARE")],
      [⟨.empty, some (.ofList [("AFFIXTYPE", .str "PREFIX")])⟩]⟩
    let jewel' :=
      { Item.plain 1 "ITEMS/JEWELS/COBALT" "Cobalt" with tags := .ok ["JEWEL"], mods := .ok mods' }
    let l := Listing.shown jewel .shopItem .zero 0 .zero
    let l' := Listing.shown jewel' .shopItem .zero 0 .zero
    l.Recased l' ∧ openCount {} l .prefixMod = 1 ∧ openCount {} l' .prefixMod = 1 ∧
      allowed {} jewel' mods' = 2 ∧ mods'.used .prefixMod = 1 := by
  intro mods jewel mods' jewel' l l'
  have hmods : mods.Recased mods' := {
    fields := .ofList (.cons ⟨by decide, .text (by decide)⟩ (.cons ⟨by decide, .text (by decide)⟩ .nil))
    modifiers := .cons ⟨.ofList .nil, .some (.ofList (.cons ⟨by decide, .text (by decide)⟩ .nil))⟩ .nil }
  have hitem : jewel.Recased jewel' := {
    address := rfl
    valid := rfl
    path := .some (by decide)
    tags := .ok (.cons (by decide) .nil)
    mods := .ok hmods }
  have hlisting : l.Recased l' := ⟨hitem, rfl⟩
  have hcounts := counts_recased {} .prefixMod hlisting
  have hsame := hcounts.1 mods mods' hmods
  have hopen : openCount {} l .prefixMod = 1 := by decide
  refine ⟨hlisting, hopen, hcounts.2 ▸ hopen, hsame.1 ▸ ?_, hsame.2 ▸ ?_⟩
  · decide
  · decide

end AffixLimits

end ShopLens
