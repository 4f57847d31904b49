import Mathlib.Data.List.Forall2
import ShopLens.Rule.Match

/-!
# ShopLens.Proofs.Rule.Bindings

Rules compiled side by side. Its place is all that a binding has from the rules around it
(`RuleSource.bind_eq`), so what is true of one rule by itself is true of it in every list.

* `compileRules_pointwise` — every rule has its binding, in order, and every rule in use without a
  condition has its error;
* `answers_usable` — without the rules that cannot be used the others match and color as before.
-/

namespace ShopLens

open ShopLens.Rule (Thresholds prepare)
open ShopLens.Filter (Compiler Predicate)

/-! ## bindings and errors -/

/-- The binding at another place. -/
def Binding.moveTo (b : Binding) (position : Nat) : Binding := { b with position }

/-- Whether the player uses a rule that has no condition. -/
def Binding.isFlawed (b : Binding) : Bool := b.enabled && b.predicate.isNone

/-- An error tells what is wrong with the rule of a binding: it names the rule, and gives the reason in
the words of the binding. -/
def RuleError.Tells (b : Binding) : RuleError → Prop
  | rejected rule error => rule = b.name ∧ b.error = some error.message
  | unreadable rule message => rule = b.name ∧ b.error = some message
  | _ => False

/-- A binding and what is wrong with its rule fit together. -/
structure Binding.Fits (b : Binding) (error : Option RuleError) : Prop where
  /-- The binding says why it has no condition just when there should be one. -/
  error_iff : b.error.isSome = true ↔ b.isFlawed = true
  /-- Without a condition it asks for no open affixes. -/
  thresholds : b.predicate = none → b.thresholds = {}
  reported_iff : error.isSome = true ↔ b.isFlawed = true
  tells : ∀ e ∈ error, e.Tells b

namespace Binding

variable {position : Nat} {r : RuleEntry}

@[simp] theorem isMatch_moveTo (b : Binding) (limits : AffixLimits) (l : Listing) :
    (b.moveTo position).isMatch limits l = b.isMatch limits l := rfl

@[simp] theorem color_moveTo (b : Binding) : (b.moveTo position).color = b.color := rfl

/-- A binding that cannot match anything matches nothing. -/
theorem isActive_of_isMatch {b : Binding} {limits : AffixLimits} {l : Listing}
    (h : b.isMatch limits l = true) : b.isActive = true := by
  obtain ⟨henabled, hpredicate⟩ := Bool.and_eq_true_iff.mp h
  cases hp : b.predicate with
  | none => simp [hp] at hpredicate
  | some p => simp [isActive, henabled, hp]

theorem fits_switchedOff (h : r.enabled = false) : (inert position r none).Fits none where
  error_iff := by simp [inert, isFlawed, h]
  thresholds _ := rfl
  reported_iff := by simp [inert, isFlawed, h]
  tells := by simp

theorem fits_active (p : Predicate) (t : Thresholds) : (active position r p t).Fits none where
  error_iff := by simp [active, isFlawed]
  thresholds := by simp [active]
  reported_iff := by simp [active, isFlawed]
  tells := by simp

theorem fits_flaw (h : r.enabled = true) (flaw : Flaw) :
    (inert position r (some flaw.message)).Fits (some (flaw.toError r.name)) where
  error_iff := by simp [inert, isFlawed, h]
  thresholds _ := rfl
  reported_iff := by simp [inert, isFlawed, h]
  tells e he := by
    obtain rfl := Option.some.inj he
    cases flaw <;> exact ⟨rfl, rfl⟩

end Binding

/-- A set of one rule matches what the rule does. -/
theorem RuleSet.isMatch_singleton (b : Binding) (limits : AffixLimits) (l : Listing) :
    (RuleSet.mk [b]).isMatch limits l = b.isMatch limits l := by
  rw [isMatch, firstMatch?, List.find?_singleton]
  cases b.isMatch limits l <;> rfl

/-! ## one rule -/

namespace RuleText

/-- Whether a text was loaded and is accepted. -/
def isAccepted (compiler : Compiler) : RuleText → Bool
  | loaded text => (compiler (prepare text).expression).isOk
  | notLoaded => false
  | unreadable _ => false

/-- The texts that state a condition are those accepted. -/
theorem isOk_condition (compiler : Compiler) (text : RuleText) :
    (text.condition compiler).isOk = text.isAccepted compiler := by
  cases text with
  | notLoaded => rfl
  | unreadable message => rfl
  | loaded text =>
      rw [condition, isAccepted]
      cases compiler (prepare text).expression <;> rfl

end RuleText

namespace RuleSource

variable (compiler : Compiler) (s : RuleSource)

/-- The binding of a rule by itself. -/
def binding : Binding := (s.bind compiler 0).1

/-- What is wrong with a rule. -/
def error? : Option RuleError := (s.bind compiler 0).2

/-- Whether a rule is in use and its text was loaded and is accepted. -/
def isUsable : Bool := s.entry.enabled && s.text.isAccepted compiler

/-- What becomes of a rule: it is switched off, has a condition, or has a flaw. -/
theorem bind_cases (position : Nat) :
    (s.entry.enabled = false ∧ s.bind compiler position = (.inert position s.entry none, none)) ∨
    (s.entry.enabled = true ∧ ∃ p t, s.text.condition compiler = .ok (p, t) ∧
      s.bind compiler position = (.active position s.entry p t, none)) ∨
    (s.entry.enabled = true ∧ ∃ flaw, s.text.condition compiler = .error flaw ∧
      s.bind compiler position =
        (.inert position s.entry (some flaw.message), some (flaw.toError s.entry.name))) := by
  cases henabled : s.entry.enabled with
  | false => exact .inl ⟨rfl, by simp [bind, henabled]⟩
  | true =>
      cases hcondition : s.text.condition compiler with
      | ok condition =>
          exact .inr (.inl ⟨rfl, _, _, rfl, by simp [bind, henabled, hcondition]⟩)
      | error flaw => exact .inr (.inr ⟨rfl, _, rfl, by simp [bind, henabled, hcondition]⟩)

/-- A rule is bound alike at every place. -/
theorem bind_eq (position : Nat) :
    s.bind compiler position = ((s.binding compiler).moveTo position, s.error? compiler) := by
  unfold binding error? bind
  split
  · split <;> rfl
  · rfl

theorem moveTo_binding : (s.binding compiler).moveTo 0 = s.binding compiler :=
  (congrArg Prod.fst (s.bind_eq compiler 0)).symm

/-- A binding has the name, the color and the switch of its rule. -/
theorem binding_entry : (s.binding compiler).name = s.entry.name ∧
    (s.binding compiler).color = s.entry.color ∧
    (s.binding compiler).enabled = s.entry.enabled := by
  unfold binding
  rcases s.bind_cases compiler 0 with ⟨-, h⟩ | ⟨henabled, p, t, -, h⟩ | ⟨-, flaw, -, h⟩
  · exact h ▸ ⟨rfl, rfl, rfl⟩
  · exact h ▸ ⟨rfl, rfl, henabled.symm⟩
  · exact h ▸ ⟨rfl, rfl, rfl⟩

theorem fits_bind (position : Nat) :
    (s.bind compiler position).1.Fits (s.bind compiler position).2 := by
  rcases s.bind_cases compiler position with ⟨hoff, h⟩ | ⟨-, p, t, -, h⟩ | ⟨hon, flaw, -, h⟩
  · exact h ▸ Binding.fits_switchedOff hoff
  · exact h ▸ Binding.fits_active p t
  · exact h ▸ Binding.fits_flaw hon flaw

/-- The rules that can be used are those whose bindings can match something. -/
theorem isActive_binding : (s.binding compiler).isActive = s.isUsable compiler := by
  rw [isUsable, ← RuleText.isOk_condition]
  unfold binding
  rcases s.bind_cases compiler 0 with ⟨hoff, h⟩ | ⟨hon, p, t, hok, h⟩ | ⟨hon, flaw, herror, h⟩
  · simp [h, hoff, Binding.isActive, Binding.inert]
  · simp [h, hon, hok, Binding.isActive, Binding.active, Except.isOk, Except.toBool]
  · simp [h, herror, Binding.isActive, Binding.inert, Except.isOk, Except.toBool]

/-- A rule in use has no error just when it can be used. -/
theorem error?_eq_none_iff {s : RuleSource} (h : s.entry.enabled = true) :
    s.error? compiler = none ↔ s.text.isAccepted compiler = true := by
  rw [← RuleText.isOk_condition]
  unfold error?
  rcases s.bind_cases compiler 0 with ⟨hoff, -⟩ | ⟨-, p, t, hok, hbind⟩ | ⟨-, flaw, herror, hbind⟩
  · rw [h] at hoff
    contradiction
  · simp [hbind, hok, Except.isOk, Except.toBool]
  · simp [hbind, herror, Except.isOk, Except.toBool]

end RuleSource

/-- A rule in use matches if it is accepted, the item is admitted and the condition holds. -/
theorem isMatch_bind_iff {compiler : Compiler} {limits : AffixLimits} {l : Listing} {entry : RuleEntry}
    (henabled : entry.enabled = true) (text : String) (position : Nat) :
    (RuleSource.bind compiler position ⟨entry, .loaded text⟩).1.isMatch limits l = true ↔
      (prepare text).thresholds.admits limits l = true ∧
        ∃ p, compiler (prepare text).expression = .ok p ∧ p limits l = .ok true := by
  rw [RuleSource.bind, if_pos henabled, RuleText.condition]
  cases compiler (prepare text).expression with
  | error e => simp [Binding.isMatch, Binding.inert]
  | ok p =>
      cases hp : p limits l <;>
        simp [Binding.isMatch, Binding.active, hp]

/-! ## many rules -/

/-- What is wrong with some rules is told of their flawed bindings, one by one. -/
theorem forall₂_tells {results : List (Binding × Option RuleError)}
    (h : ∀ result ∈ results, result.1.Fits result.2) :
    List.Forall₂ (fun e b => RuleError.Tells b e) (results.filterMap Prod.snd)
      ((results.map Prod.fst).filter Binding.isFlawed) := by
  induction results with
  | nil => exact .nil
  | cons result results ih =>
      obtain ⟨b, error⟩ := result
      obtain ⟨hfits, hrest⟩ := List.forall_mem_cons.mp h
      have hreported : error.isSome = true ↔ b.isFlawed = true := hfits.reported_iff
      cases error with
      | none =>
          have hflawed : ¬b.isFlawed = true := fun hb => absurd (hreported.mpr hb) (by decide)
          rw [List.map_cons, List.filter_cons_of_neg hflawed]
          exact ih hrest
      | some e =>
          have hflawed : b.isFlawed = true := hreported.mp rfl
          rw [List.map_cons, List.filter_cons_of_pos hflawed]
          exact .cons (hfits.tells e rfl) (ih hrest)

section Rules

variable {compiler : Compiler} (sources : List RuleSource)

theorem bindings_eq_mapIdx : (compileRules compiler sources).set.bindings =
    sources.mapIdx fun i s => (s.binding compiler).moveTo i := by
  rw [List.mapIdx_eq_zipIdx_map]
  simp [compileRules, RuleSource.bind_eq]

theorem errors_eq_filterMap : (compileRules compiler sources).errors =
    sources.filterMap (RuleSource.error? compiler) := by
  have herror (source : RuleSource × Nat) :
      (source.1.bind compiler source.2).2 = source.1.error? compiler := by
    rw [source.1.bind_eq compiler source.2]
  calc (compileRules compiler sources).errors
      = sources.zipIdx.filterMap (RuleSource.error? compiler ∘ Prod.fst) := by
        rw [compileRules, List.filterMap_map]
        exact List.filterMap_congr fun source _ => herror source
    _ = (sources.zipIdx.map Prod.fst).filterMap (RuleSource.error? compiler) :=
        List.filterMap_map.symm
    _ = sources.filterMap (RuleSource.error? compiler) := by rw [List.zipIdx_map_fst]

theorem bindings_compileRules {sources : List RuleSource} {i : Nat} {source : RuleSource}
    (h : sources[i]? = some source) :
    (compileRules compiler sources).set.bindings[i]? = some (source.bind compiler i).1 := by
  rw [bindings_eq_mapIdx, List.getElem?_mapIdx, h, source.bind_eq compiler i]
  rfl

/-- The rules of a list behind another one are bound as by themselves, at later places. -/
theorem bindings_append (more : List RuleSource) :
    (compileRules compiler (sources ++ more)).set.bindings =
      (compileRules compiler sources).set.bindings ++
        (compileRules compiler more).set.bindings.map
          fun b => b.moveTo (sources.length + b.position) := by
  simp only [bindings_eq_mapIdx, List.mapIdx_append]
  congr 1
  refine List.ext_getElem? fun i => ?_
  rw [List.getElem?_map, List.getElem?_mapIdx, List.getElem?_mapIdx, Option.map_map]
  congr 1
  funext s
  rw [Nat.add_comm]
  rfl

theorem errors_append (more : List RuleSource) : (compileRules compiler (sources ++ more)).errors =
    (compileRules compiler sources).errors ++ (compileRules compiler more).errors := by
  simp only [errors_eq_filterMap, List.filterMap_append]

/-- What is wrong is found rule by rule. -/
theorem errors_eq_flatMap : (compileRules compiler sources).errors =
    sources.flatMap fun s => (compileRules compiler [s]).errors := by
  simp only [errors_eq_filterMap, List.filterMap_eq_flatMap_toList, List.flatMap_singleton]

theorem fits_of_mem_bindings {b : Binding} (h : b ∈ (compileRules compiler sources).set.bindings) :
    ∃ error, b.Fits error := by
  obtain ⟨i, hi, rfl⟩ := List.mem_mapIdx.mp (bindings_eq_mapIdx sources ▸ h)
  have hfits := sources[i].fits_bind compiler i
  rw [RuleSource.bind_eq] at hfits
  exact ⟨_, hfits⟩

/-- Each error tells of the binding of its rule, in order. -/
theorem errors_tell : List.Forall₂ (fun e b => RuleError.Tells b e)
    (compileRules compiler sources).errors
    ((compileRules compiler sources).set.bindings.filter Binding.isFlawed) := by
  refine forall₂_tells fun result hmem => ?_
  obtain ⟨⟨s, position⟩, -, rfl⟩ := List.mem_map.mp hmem
  exact s.fits_bind compiler position

/-- **Compiling rules.** Every rule has its binding, in order, which is that of the rule by itself at its
place; a list behind another one is compiled as by itself, at later places. A binding says what is wrong
just when the rule is in use and has no condition, and there is an error for each such binding, in
order. -/
theorem compileRules_pointwise (more : List RuleSource) :
    let compiled := compileRules compiler sources
    let both := compileRules compiler (sources ++ more)
    compiled.set.bindings.length = sources.length ∧
      (∀ i s, sources[i]? = some s → ∃ b : Binding, compiled.set.bindings[i]? = some b ∧
        b.position = i ∧ b.name = s.entry.name ∧ b.color = s.entry.color ∧
        b.enabled = s.entry.enabled ∧ b.isActive = s.isUsable compiler ∧
        (compileRules compiler [s]).set.bindings = [b.moveTo 0]) ∧
      (∀ b ∈ compiled.set.bindings,
        (b.error.isSome = true ↔ b.enabled = true ∧ b.predicate.isNone = true) ∧
          (b.predicate = none → b.thresholds = {})) ∧
      List.Forall₂ (fun e b => RuleError.Tells b e) compiled.errors
        (compiled.set.bindings.filter fun b => b.enabled && b.predicate.isNone) ∧
      compiled.errors = sources.flatMap (fun s => (compileRules compiler [s]).errors) ∧
      both.set.bindings = compiled.set.bindings ++
        (compileRules compiler more).set.bindings.map
          (fun b => b.moveTo (sources.length + b.position)) ∧
      both.errors = compiled.errors ++ (compileRules compiler more).errors := by
  refine ⟨?_, fun i s hs => ?_, fun b hb => ?_, errors_tell sources, errors_eq_flatMap sources,
    bindings_append sources more, errors_append sources more⟩
  · rw [bindings_eq_mapIdx, List.length_mapIdx]
  · obtain ⟨hname, hcolor, henabled⟩ := s.binding_entry compiler
    refine ⟨(s.binding compiler).moveTo i, ?_, rfl, hname, hcolor, henabled,
      s.isActive_binding compiler, ?_⟩
    · rw [bindings_compileRules hs, s.bind_eq]
    · rw [bindings_eq_mapIdx]
      rfl
  · obtain ⟨error, hfits⟩ := fits_of_mem_bindings sources hb
    exact ⟨hfits.error_iff.trans Bool.and_eq_true_iff, hfits.thresholds⟩

/-- A rule that cannot be read, one that is switched off, and one that every item matches. -/
theorem compileRules_of_three :
    let sources : List RuleSource :=
      [⟨{ name := "gone", location := "gone.ifl", enabled := true }, .unreadable "no such file"⟩,
        ⟨{ name := "off", location := "off.ifl" }, .notLoaded⟩,
        ⟨{ name := "all", location := "all.ifl", enabled := true }, .loaded "true"⟩]
    let compiled := compileRules Filter.compile sources
    sources[1]? = some ⟨{ name := "off", location := "off.ifl" }, .notLoaded⟩ ∧
      compiled.set.bindings.length = 3 ∧
      ∃ b : Binding, compiled.set.bindings[1]? = some b ∧ b.position = 1 ∧ b.name = "off" ∧
        b.enabled = false := by
  intro sources compiled
  obtain ⟨hlength, hbinding, -⟩ := @compileRules_pointwise Filter.compile sources []
  obtain ⟨b, hb, hposition, hname, -, henabled, -⟩ := hbinding 1 _ rfl
  exact ⟨rfl, hlength, b, hb, hposition, hname, henabled⟩

/-! ## rules that cannot be used -/

/-- But for their places the bindings are those of the rules by themselves. -/
theorem map_moveTo_bindings : (compileRules compiler sources).set.bindings.map (·.moveTo 0) =
    sources.map (RuleSource.binding compiler) := by
  rw [bindings_eq_mapIdx]
  refine List.ext_getElem? fun i => ?_
  rw [List.getElem?_map, List.getElem?_mapIdx, List.getElem?_map, Option.map_map]
  congr 1
  funext s
  exact s.moveTo_binding compiler

/-- The first binding with a property that does not depend on the place is that of the first rule with
it. -/
theorem find?_bindings {p : Binding → Bool} (hp : ∀ b, p (b.moveTo 0) = p b) :
    ((compileRules compiler sources).set.bindings.find? p).map (·.moveTo 0) =
      (sources.find? fun s => p (s.binding compiler)).map (RuleSource.binding compiler) := by
  have hmoved := congrArg (List.find? p) (@map_moveTo_bindings compiler sources)
  rw [List.find?_map, List.find?_map] at hmoved
  rwa [show p ∘ (·.moveTo 0) = p from funext hp] at hmoved

/-- The first binding with a property that only rules that can be used have is the same, but for its
place, without the other rules. -/
theorem find?_usable {p : Binding → Bool} (hp : ∀ b, p (b.moveTo 0) = p b)
    (hactive : ∀ b, p b = true → b.isActive = true) :
    ((compileRules compiler (sources.filter (·.isUsable compiler))).set.bindings.find? p).map
        (·.moveTo 0) =
      ((compileRules compiler sources).set.bindings.find? p).map (·.moveTo 0) := by
  rw [find?_bindings _ hp, find?_bindings _ hp, List.find?_filter]
  congr 2
  funext s
  refine Bool.eq_iff_iff.mpr ?_
  rw [decide_eq_true_iff, ← s.isActive_binding compiler]
  exact and_iff_right_of_imp (hactive _)

/-- The place of a binding does not matter for its color. -/
theorem map_color_of_map_moveTo {b b' : Option Binding} (h : b.map (·.moveTo 0) = b'.map (·.moveTo 0)) :
    b.map Binding.color = b'.map Binding.color := by
  have hcolor := congrArg (Option.map Binding.color) h
  simpa only [Option.map_map, Function.comp_def, Binding.color_moveTo] using hcolor

end Rules

/-- **Without the rules that cannot be used** (switched off, not loaded, unreadable or rejected) the
others match the same items, and color items and tabs as before. -/
theorem answers_usable (compiler : Compiler) (sources : List RuleSource) (limits : AffixLimits)
    (default : Color) (ls : List Listing) :
    let all := (compileRules compiler sources).set
    let usable := (compileRules compiler (sources.filter (·.isUsable compiler))).set
    (∀ l, usable.isMatch limits l = all.isMatch limits l ∧
        usable.colorOf limits default l = all.colorOf limits default l) ∧
      usable.colorOfAny limits default ls = all.colorOfAny limits default ls := by
  intro all usable
  have hfirst (l : Listing) : (usable.firstMatch? limits l).map Binding.color =
      (all.firstMatch? limits l).map Binding.color :=
    map_color_of_map_moveTo (find?_usable sources (fun b => b.isMatch_moveTo limits l)
      fun _ hb => Binding.isActive_of_isMatch hb)
  have hany : (usable.bindings.find? fun b => ls.any (b.isMatch limits ·)).map Binding.color =
      (all.bindings.find? fun b => ls.any (b.isMatch limits ·)).map Binding.color := by
    refine map_color_of_map_moveTo
      (find?_usable sources (fun b => by simp only [Binding.isMatch_moveTo]) fun b hb => ?_)
    obtain ⟨l, -, hl⟩ := List.any_eq_true.mp hb
    exact Binding.isActive_of_isMatch hl
  refine ⟨fun l => ⟨?_, congrArg (·.getD default) (hfirst l)⟩, congrArg (·.getD default) hany⟩
  calc usable.isMatch limits l
      = ((usable.firstMatch? limits l).map Binding.color).isSome := Option.isSome_map.symm
    _ = ((all.firstMatch? limits l).map Binding.color).isSome := by rw [hfirst]
    _ = all.isMatch limits l := Option.isSome_map

end ShopLens
