import ShopLens.Affix

/-!
# ShopLens.Proofs.Affix.Signals

The kind of a modifier and the signals that it is told from. A modifier is of a kind if any of its signals
names the kind, so one whose signals disagree is of both kinds and counts twice.

* `Modifier.decided_iff` — the weightiest signal decides just when no signals disagree;
* `Mods.used_add_used` — the affixes that are counted are as many as the modifiers, but for those of both
  kinds and those of none;
* `one_kind_iff` — when a modifier has one kind, and when no more affixes are counted than there are
  modifiers.
-/

namespace ShopLens

/-! ## signals -/

/-- What the kind of a modifier is told from, the weightiest first. -/
inductive Signal where
  /-- The affix type of its definition, in words. -/
  | affixType
  /-- Its flag for the kind. -/
  | flag
  /-- The generation type of its definition, in words. -/
  | generationType
  /-- The generation type of its definition, as a number. -/
  | generationId
deriving DecidableEq, Repr

namespace Signal

/-- The signals, the weightiest first. -/
def all : List Signal := [affixType, flag, generationType, generationId]

theorem mem_all (s : Signal) : s ∈ all := by
  cases s <;> decide

/-- Whether a signal of a modifier names a kind. -/
def names (s : Signal) (m : Modifier) (k : AffixKind) : Bool :=
  match s with
  | affixType => m.isDescribedAs "AffixType" k
  | flag => m.fields.firstBool? [k.flagField] == some true
  | generationType => m.isDescribedAs "GenerationType" k
  | generationId => m.definition.bind (·.firstInt? generationFields) == some k.generationId

/-- The kind that a signal of a modifier names. -/
def kind? (s : Signal) (m : Modifier) : Option AffixKind :=
  if s.names m .prefixMod then some .prefixMod
  else if s.names m .suffixMod then some .suffixMod
  else none

variable {s : Signal} {m : Modifier} {k : AffixKind}

theorem names_of_kind? (h : s.kind? m = some k) : s.names m k = true := by
  unfold kind? at h
  split at h
  · next hpre =>
      obtain rfl := Option.some.inj h
      exact hpre
  · split at h
    · next hsuf =>
        obtain rfl := Option.some.inj h
        exact hsuf
    · contradiction

/-- A signal that names a kind is present. -/
theorem kind?_ne_none (h : s.names m k = true) : s.kind? m ≠ none := by
  cases k with
  | prefixMod => simp [kind?, h]
  | suffixMod => by_cases hpre : s.names m .prefixMod = true <;> simp [kind?, h, hpre]

end Signal

/-! ## modifiers -/

namespace Modifier

variable {m : Modifier} {k k' : AffixKind}

/-- The kind that the weightiest signal names. -/
def kind? (m : Modifier) : Option AffixKind := Signal.all.findSome? (·.kind? m)

/-- Whether the signals of a modifier disagree. -/
def isTorn (m : Modifier) : Bool :=
  Signal.all.any fun s => Signal.all.any fun s' => s.names m .prefixMod && s'.names m .suffixMod

/-- A modifier is of the kinds that its signals name. -/
theorem isOfKind_iff : m.isOfKind k = true ↔ ∃ s : Signal, s.names m k = true := by
  have hany : m.isOfKind k = Signal.all.any (·.names m k) := by
    simp [isOfKind, Signal.all, Signal.names, Bool.or_assoc]
  rw [hany, List.any_eq_true]
  exact ⟨fun ⟨s, _, hs⟩ => ⟨s, hs⟩, fun ⟨s, hs⟩ => ⟨s, s.mem_all, hs⟩⟩

theorem isTorn_iff : m.isTorn = true ↔ m.isOfKind .prefixMod = true ∧ m.isOfKind .suffixMod = true := by
  simp only [isTorn, List.any_eq_true, Bool.and_eq_true, isOfKind_iff]
  constructor
  · rintro ⟨s, -, s', -, hs, hs'⟩
    exact ⟨⟨s, hs⟩, s', hs'⟩
  · rintro ⟨⟨s, hs⟩, s', hs'⟩
    exact ⟨s, s.mem_all, s', s'.mem_all, hs, hs'⟩

/-- The weightiest signal names a kind that the modifier is of. -/
theorem isOfKind_of_kind? (h : m.kind? = some k) : m.isOfKind k = true := by
  obtain ⟨s, -, hs⟩ := List.exists_of_findSome?_eq_some h
  exact isOfKind_iff.mpr ⟨s, Signal.names_of_kind? hs⟩

/-- There is no weightiest signal just when the modifier is of no kind. -/
theorem kind?_eq_none_iff : m.kind? = none ↔ ∀ k, m.isOfKind k = false := by
  constructor
  · intro h k
    refine Bool.eq_false_iff.mpr fun hk => ?_
    obtain ⟨s, hs⟩ := isOfKind_iff.mp hk
    exact Signal.kind?_ne_none hs (List.findSome?_eq_none_iff.mp h s s.mem_all)
  · intro h
    cases hk : m.kind? with
    | none => rfl
    | some k =>
        have hof := isOfKind_of_kind? hk
        rw [h k] at hof
        contradiction

/-- A modifier is of one kind at most, unless its signals disagree. -/
theorem eq_of_isOfKind (htorn : m.isTorn = false) (h : m.isOfKind k = true)
    (h' : m.isOfKind k' = true) : k = k' := by
  have hboth : ¬(m.isOfKind .prefixMod = true ∧ m.isOfKind .suffixMod = true) := by
    rw [← isTorn_iff, htorn]
    decide
  cases k <;> cases k'
  · rfl
  · exact absurd ⟨h, h'⟩ hboth
  · exact absurd ⟨h', h⟩ hboth
  · rfl

/-- **The weightiest signal decides** just when no signals disagree. -/
theorem decided_iff : (∀ k, m.isOfKind k = true ↔ m.kind? = some k) ↔ m.isTorn = false := by
  constructor
  · intro h
    refine Bool.eq_false_iff.mpr fun htorn => ?_
    obtain ⟨hpre, hsuf⟩ := isTorn_iff.mp htorn
    have hkind := (h _).mp hpre
    rw [(h _).mp hsuf] at hkind
    contradiction
  · intro htorn k
    refine ⟨fun hk => ?_, isOfKind_of_kind?⟩
    cases hkind : m.kind? with
    | none =>
        rw [kind?_eq_none_iff.mp hkind k] at hk
        contradiction
    | some k' => rw [eq_of_isOfKind htorn hk (isOfKind_of_kind? hkind)]

end Modifier

/-! ## counting -/

/-- Two counts in one list miss what neither counts, and have twice what both count. -/
theorem countP_add_countP {α : Type} (p q : α → Bool) (xs : List α) :
    xs.countP p + xs.countP q + xs.countP (fun x => !p x && !q x) =
      xs.length + xs.countP fun x => p x && q x := by
  induction xs with
  | nil => rfl
  | cons x xs ih =>
      simp only [List.countP_cons, List.length_cons]
      cases p x <;> cases q x <;> simp <;> omega

namespace Mods

variable {mods : Mods}

/-- Whether the number of affixes is not among the properties of the item. -/
def Uncounted (mods : Mods) : Prop := ∀ k : AffixKind, mods.fields.firstInt? k.countFields = none

theorem used_of_uncounted (h : mods.Uncounted) (k : AffixKind) :
    mods.used k = mods.modifiers.countP (·.isOfKind k) := by
  rw [used, h k, List.countP_eq_length_filter]

/-- The affixes that are counted are as many as the modifiers, but for those of both kinds and those of
none. -/
theorem used_add_used (h : mods.Uncounted) :
    mods.used .prefixMod + mods.used .suffixMod + mods.modifiers.countP (·.kind?.isNone) =
      mods.modifiers.length + mods.modifiers.countP (·.isTorn) := by
  have hnone (m : Modifier) :
      m.kind?.isNone = (!m.isOfKind .prefixMod && !m.isOfKind .suffixMod) := by
    rw [Bool.eq_iff_iff, Option.isNone_iff_eq_none, Modifier.kind?_eq_none_iff, Bool.and_eq_true,
      Bool.not_eq_true', Bool.not_eq_true']
    exact ⟨fun h => ⟨h _, h _⟩, fun ⟨hpre, hsuf⟩ k => by cases k <;> assumption⟩
  have htorn (m : Modifier) : m.isTorn = (m.isOfKind .prefixMod && m.isOfKind .suffixMod) := by
    rw [Bool.eq_iff_iff, Modifier.isTorn_iff, Bool.and_eq_true]
  simp only [used_of_uncounted h, hnone, htorn]
  exact countP_add_countP _ _ _

end Mods

/-- **One kind.** The kind of a modifier is the one that its weightiest signal names, unless signals
disagree; then it is of both kinds. So of an item without counts no more affixes are counted than it has
modifiers just when no more modifiers are torn than there are without a kind. -/
theorem one_kind_iff (m : Modifier) {mods : Mods} (h : mods.Uncounted) :
    ((∀ k, m.isOfKind k = true ↔ m.kind? = some k) ↔ m.isTorn = false) ∧
      (m.isTorn = true ↔ ∀ k, m.isOfKind k = true) ∧
      (mods.used .prefixMod + mods.used .suffixMod ≤ mods.modifiers.length ↔
        mods.modifiers.countP (·.isTorn) ≤ mods.modifiers.countP (·.kind?.isNone)) := by
  refine ⟨Modifier.decided_iff, ?_, ?_⟩
  · rw [Modifier.isTorn_iff]
    exact ⟨fun ⟨hpre, hsuf⟩ k => by cases k <;> assumption, fun h => ⟨h _, h _⟩⟩
  · have hsum := mods.used_add_used h
    omega

/-- A modifier told by its affix type, one told by its flag, one whose signals disagree, and one without
signals. -/
theorem one_kind_of_four :
    let told : Modifier := ⟨.empty, some (.ofList [("AffixType", .str "Prefix")])⟩
    let flagged : Modifier := ⟨.ofList [("IsSuffix", .bool true)], none⟩
    let torn : Modifier := ⟨.ofList [("IsPrefix", .bool true)], some (.ofList [("GenType", .int 2)])⟩
    let plain : Modifier := ⟨.empty, some (.ofList [("AffixType", .str "Implicit")])⟩
    let mods : Mods := ⟨.ofList [("Rarity", .str "Rare")], [told, flagged, torn, plain]⟩
    mods.Uncounted ∧ (∀ k, told.isOfKind k = true ↔ told.kind? = some k) ∧
      (∀ k, torn.isOfKind k = true) ∧
      mods.used .prefixMod + mods.used .suffixMod ≤ mods.modifiers.length := by
  intro told flagged torn plain mods
  have huncounted : mods.Uncounted := fun k => by cases k <;> decide
  have htold := one_kind_iff told huncounted
  have htorn := one_kind_iff torn huncounted
  exact ⟨huncounted, htold.1.mpr (by decide), htorn.2.1.mp (by decide), htorn.2.2.mpr (by decide)⟩

/-- A modifier with the affix type of a prefix and the flag of a suffix counts twice. -/
theorem used_of_torn :
    let torn : Modifier := ⟨.ofList [("IsSuffix", .bool true)], some (.ofList [("AffixType", .str "Prefix")])⟩
    let mods : Mods := ⟨.empty, [torn]⟩
    mods.Uncounted ∧ torn.kind? = some .prefixMod ∧ torn.isOfKind .suffixMod = true ∧
      mods.used .prefixMod = 1 ∧ mods.used .suffixMod = 1 := by
  intro torn mods
  exact ⟨fun k => by cases k <;> decide, by decide, by decide, by decide, by decide⟩

end ShopLens
