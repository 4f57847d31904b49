import ShopLens.Filter.Eval
import ShopLens.Rule.Entry
import ShopLens.Rule.Error
import ShopLens.Rule.Prepared

/-!
# ShopLens.Rule.Binding

Rules as they are applied. Every rule keeps its place in the set: one that is switched off, has no
text or is rejected becomes a binding without condition, which never matches.
-/

namespace ShopLens

open ShopLens.Rule (Thresholds prepare)
open ShopLens.Filter (Compiler FilterError Predicate)

/-! ## sources -/

/-- What is known of the text of a rule. -/
inductive RuleText where
  | notLoaded
  /-- It could not be read, in the words of the system. -/
  | unreadable (message : String)
  | loaded (text : String)
deriving DecidableEq, Repr

/-- A rule and its text. -/
structure RuleSource where
  entry : RuleEntry
  text : RuleText
deriving DecidableEq, Repr

/-! ## bindings -/

/-- A rule as it is applied. -/
structure Binding where
  position : Nat
  name : String
  enabled : Bool
  color : Color
  predicate : Option Predicate
  thresholds : Thresholds
  /-- Why it has no condition although the player uses it. -/
  error : Option String

namespace Binding

/-- Whether a binding can match anything. -/
def isActive (b : Binding) : Bool := b.enabled && b.predicate.isSome

/-- The binding of a rule without condition. -/
def inert (position : Nat) (r : RuleEntry) (error : Option String) : Binding :=
  { position, name := r.name, enabled := r.enabled, color := r.color, predicate := none,
    thresholds := {}, error }

/-- The binding of a rule with a condition. -/
def active (position : Nat) (r : RuleEntry) (predicate : Predicate) (thresholds : Thresholds) :
    Binding :=
  { position, name := r.name, enabled := true, color := r.color, predicate := some predicate,
    thresholds, error := none }

end Binding

/-- The bindings of all rules, the first rule first. -/
structure RuleSet where
  bindings : List Binding

/-- The set without rules. -/
def RuleSet.empty : RuleSet := ⟨[]⟩

/-- The number of bindings that can match anything. -/
def RuleSet.activeCount (s : RuleSet) : Nat := (s.bindings.filter Binding.isActive).length

/-! ## compiling -/

/-- Why a rule that the player uses has no condition. -/
inductive Flaw where
  | unreadable (message : String)
  | rejected (error : FilterError)
deriving DecidableEq

/-- The wording of a flaw within the binding. -/
def Flaw.message : Flaw → String
  | unreadable message => message
  | rejected error => error.message

/-- A flaw as an error of the rule with that name. -/
def Flaw.toError (rule : String) : Flaw → RuleError
  | unreadable message => .unreadable rule message
  | rejected error => .rejected rule error

/-- The condition that the text of a rule states, and the open affixes that it asks for. -/
def RuleText.condition (compiler : Compiler) : RuleText → Except Flaw (Predicate × Thresholds)
  | notLoaded => .error (.unreadable "rule text was not loaded")
  | unreadable message => .error (.unreadable message)
  | loaded text =>
    match compiler (prepare text).expression with
    | .ok predicate => .ok (predicate, (prepare text).thresholds)
    | .error e => .error (.rejected e)

/-- The binding of a rule at some place, and what is wrong with the rule. -/
def RuleSource.bind (compiler : Compiler) (position : Nat) (s : RuleSource) :
    Binding × Option RuleError :=
  if s.entry.enabled then
    match s.text.condition compiler with
    | .ok (predicate, thresholds) => (.active position s.entry predicate thresholds, none)
    | .error flaw =>
      (.inert position s.entry (some flaw.message), some (flaw.toError s.entry.name))
  else (.inert position s.entry none, none)

/-- A rule set and what is wrong with its rules. -/
structure CompiledRules where
  set : RuleSet
  errors : List RuleError

/-- The rule set of some sources. -/
def compileRules (compiler : Compiler) (sources : List RuleSource) : CompiledRules :=
  let results := sources.zipIdx.map fun (s, position) => s.bind compiler position
  ⟨⟨results.map Prod.fst⟩, results.filterMap Prod.snd⟩

end ShopLens
