import ShopLens.Proofs.Filter.Verdict
import ShopLens.Proofs.Rule.Bindings
import ShopLens.Proofs.Rule.Conjuncts
import ShopLens.Proofs.Session.Runs

/-!
# ShopLens.Proofs.Session.Trial

Trying a rule text on an item, beside loading it as the only rule. Both prepare the text and evaluate
its expression under the limits of the settings, which hold throughout every run (`Session.uses_run`).
Only the rule goes on to ask for the open affixes that were taken out of the text, so a trial never
fails where the rule matches, and the two agree just when an item for which the trial holds has the open
affixes asked for (`Session.tryText_agrees_iff`).
-/

namespace ShopLens

open ShopLens.Rule (Thresholds prepare)
open ShopLens.Filter (Compiler)

/-- What a rule asks of an item apart from its condition. -/
theorem Rule.Thresholds.admits_iff_of_any (t : Thresholds) (limits : AffixLimits) (l : Listing) :
    t.admits limits l = true ↔ (t.any = true → 0 ≤ l.tab ∧ l.displayed = true ∧
      (∀ n ∈ t.prefixes, n ≤ limits.openCount l .prefixMod) ∧
      ∀ n ∈ t.suffixes, n ≤ limits.openCount l .suffixMod) := by
  cases hany : t.any with
  | false => simp [admits, hany]
  | true => simp [admits, hany, Option.all_eq_true, and_assoc]

namespace Session

/-! ## what stays over a run -/

/-- A session has a given compiler, and the limits of its settings. -/
structure Uses (s : Session) (compiler : Compiler) : Prop where
  compiler_eq : s.compiler = compiler
  limits_eq : s.limits = s.settings.affixLimits

variable {s t : Session} {compiler : Compiler}

theorem uses_withCompiler (compiler : Compiler) (settings : Settings) :
    (withCompiler compiler settings).Uses compiler := ⟨rfl, rfl⟩

theorem Uses.keeps (h : s.Uses compiler) (hkeeps : s.Keeps t) : t.Uses compiler where
  compiler_eq := hkeeps.compiler_eq.trans h.compiler_eq
  limits_eq := by rw [hkeeps.limits_eq, hkeeps.affixLimits_eq, h.limits_eq]

/-- Nothing that may happen changes the compiler, or the limits without the settings. -/
theorem uses_step (h : s.Uses compiler) (a : Action) : (s.step a).Uses compiler := by
  rcases s.step_cases a with ⟨settings, rfl⟩ | ⟨window, now, rfl⟩ | ⟨-, hkeeps⟩
  · exact ⟨h.compiler_eq, rfl⟩
  · exact ⟨h.compiler_eq, h.limits_eq⟩
  · exact h.keeps hkeeps

theorem uses_run (h : s.Uses compiler) (actions : List Action) : (s.run actions).Uses compiler := by
  induction actions generalizing s with
  | nil => exact h
  | cons a actions ih => exact ih (uses_step h a)

/-! ## trials and rules -/

/-- A trial holds if the text is accepted and its condition holds. -/
theorem tryText_eq_ok_iff (h : s.Uses compiler) (text : String) (l : Listing) :
    s.tryText text l = .ok true ↔
      ∃ p, compiler (prepare text).expression = .ok p ∧ p s.settings.affixLimits l = .ok true := by
  rw [tryText, h.compiler_eq, h.limits_eq]
  cases compiler (prepare text).expression <;> simp

/-- The only rule of a session matches if a trial of its text holds and the item is admitted. -/
theorem isMatch_loadSources_iff (h : s.Uses compiler) {entry : RuleEntry}
    (henabled : entry.enabled = true) (text : String) (l : Listing) :
    (s.loadSources [⟨entry, .loaded text⟩]).2.isMatch l = true ↔
      (prepare text).thresholds.admits s.settings.affixLimits l = true ∧
        s.tryText text l = .ok true := by
  have hmatch : (s.loadSources [⟨entry, .loaded text⟩]).2.isMatch l =
      (RuleSource.bind compiler 0 ⟨entry, .loaded text⟩).1.isMatch s.settings.affixLimits l := by
    rw [← h.limits_eq, ← h.compiler_eq]
    exact RuleSet.isMatch_singleton _ s.limits l
  rw [hmatch, isMatch_bind_iff henabled, tryText_eq_ok_iff h]

/-- **A trial of a text and the rule with that text** agree on an item, in any two sessions with the same
settings, just when the item has the open affixes that the text asks for, unless the trial fails
anyway. -/
theorem tryText_agrees_iff (compiler : Compiler) {settings settings' : Settings}
    {actions actions' : List Action}
    (hsettings : ((withCompiler compiler settings').run actions').settings =
      ((withCompiler compiler settings).run actions).settings)
    {entry : RuleEntry} (henabled : entry.enabled = true) (text : String) (l : Listing) :
    let s := (withCompiler compiler settings).run actions
    let t := (withCompiler compiler settings').run actions'
    let asked := (prepare text).thresholds
    let openCount := s.settings.affixLimits.openCount l
    ((s.tryText text l = .ok true ↔
        (t.loadSources [⟨entry, .loaded text⟩]).2.isMatch l = true) ↔
      (s.tryText text l = .ok true → asked.any = true →
        0 ≤ l.tab ∧ l.displayed = true ∧ (∀ n ∈ asked.prefixes, n ≤ openCount .prefixMod) ∧
          ∀ n ∈ asked.suffixes, n ≤ openCount .suffixMod)) := by
  intro s t asked openCount
  have hs : s.Uses compiler := uses_run (uses_withCompiler compiler settings) actions
  have ht : t.Uses compiler := uses_run (uses_withCompiler compiler settings') actions'
  have hsame : t.tryText text l = .ok true ↔ s.tryText text l = .ok true := by
    rw [tryText_eq_ok_iff ht, tryText_eq_ok_iff hs, hsettings]
  rw [isMatch_loadSources_iff ht henabled, hsame, hsettings, Thresholds.admits_iff_of_any]
  constructor
  · intro h htry
    exact (h.mp htry).1
  · intro h
    exact ⟨fun htry => ⟨h htry, htry⟩, And.right⟩

/-! ## a rule for items with an open prefix -/

/-- A ring on the first tab, with a number of prefixes. -/
def ringWith (prefixes : Int) : Listing :=
  .shown { Item.ring 1 with mods := .ok ⟨.ofList [("PrefixesCount", .int prefixes)], []⟩ } .shopItem
    ⟨100, 100, 50, 50⟩ 0 .zero

theorem prepare_openPrefix : prepare "OpenPrefixCount() >= 1" = ⟨"true", ⟨some 1, none⟩⟩ := by
  have hready := Rule.prepare_conjunction (List.cons_ne_nil
    (Rule.Conjunct.bound .prefixMod false ['1'] (by decide)
      (List.all_iff_forall_prop.mp (by decide))) [])
  exact hready

theorem tryText_openPrefix (settings : Settings) (l : Listing) :
    (Session.new settings).tryText "OpenPrefixCount() >= 1" l = .ok true := by
  have hlexes : Filter.Lexes "true".toList [.ident "true"] :=
    ⟨[⟨.ident "true", 0⟩], by decide +kernel, rfl⟩
  have hcompile : Filter.compile "true" = .ok (Filter.Expr.literal (.bool true)).predicate :=
    Filter.compile_of_lexes hlexes
      (Filter.Derives.keyword rfl).ofAtom.ofOperand.ofComparison.conjunction.disjunction (by decide)
  refine (tryText_eq_ok_iff (uses_withCompiler Filter.compile settings) _ l).mpr ?_
  rw [prepare_openPrefix]
  exact ⟨_, hcompile, rfl⟩

/-- A ring with two prefixes, tried in a session, and matched in one that took over its settings. -/
theorem tryText_agrees_of_open :
    let rule : RuleEntry := { name := "open", location := "open.ifl", enabled := true }
    let s := (withCompiler Filter.compile {}).run []
    let t := (withCompiler Filter.compile { purchaseLimit := 7 }).run [.applySettings {}]
    rule.enabled = true ∧ t.settings = s.settings ∧
      s.tryText "OpenPrefixCount() >= 1" (ringWith 2) = .ok true ∧
      (t.loadSources [⟨rule, .loaded "OpenPrefixCount() >= 1"⟩]).2.isMatch (ringWith 2) = true := by
  intro rule s t
  have htry : s.tryText "OpenPrefixCount() >= 1" (ringWith 2) = .ok true := tryText_openPrefix {} _
  have hsettings : t.settings = s.settings := rfl
  refine ⟨rfl, hsettings, htry, ?_⟩
  refine ((tryText_agrees_iff Filter.compile hsettings rfl _ (ringWith 2)).mpr fun _ _ => ?_).mp htry
  rw [prepare_openPrefix]
  decide

/-- A ring with three prefixes has no open one; the trial holds and the rule does not match. -/
theorem tryText_of_full :
    let rule : RuleEntry := { name := "open", location := "open.ifl", enabled := true }
    let s := Session.new {}
    s.tryText "OpenPrefixCount() >= 1" (ringWith 3) = .ok true ∧
      (s.loadSources [⟨rule, .loaded "OpenPrefixCount() >= 1"⟩]).2.isMatch (ringWith 3) = false := by
  intro rule s
  refine ⟨tryText_openPrefix {} _, Bool.eq_false_iff.mpr fun hmatch => ?_⟩
  have hadmits := ((isMatch_loadSources_iff (uses_withCompiler Filter.compile {}) rfl _ _).mp hmatch).1
  rw [prepare_openPrefix] at hadmits
  exact absurd hadmits (by decide)

end Session

end ShopLens
