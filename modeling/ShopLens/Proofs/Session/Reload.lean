import ShopLens.Proofs.Rule.Bindings
import ShopLens.Proofs.Rule.Folder
import ShopLens.Session.Basic

/-!
# ShopLens.Proofs.Session.Reload

Looking for the rules of a session again. Either the folder cannot be read, and then the session stays
as it is, or what was found takes the place of what there was before: the rules that the settings
remember, and beside each of them, at the same place, the binding of that rule (`Session.reload_aligned`).

Which of the bindings can match anything is decided by the file of the rule and by nothing else
(`RuleFolder.isUsable_readSource_iff`).
-/

namespace ShopLens

open ShopLens.Rule (prepare)
open ShopLens.Filter (Compiler)

/-! ## rules of a folder -/

namespace RuleFolder

variable {compiler : Compiler} {fs : FileSystem} {folder : String}

/-- A rule of a folder can be used if it is in use, its file can be read as text, and the text is
accepted. -/
theorem isUsable_readSource_iff (r : RuleEntry) :
    (readSource fs folder r).isUsable compiler = true ↔
      r.enabled = true ∧ ∃ text, fs.readText (Path.join folder r.location) = .ok text ∧
        (compiler (prepare text).expression).isOk = true := by
  unfold readSource RuleSource.isUsable
  cases henabled : r.enabled with
  | false => simp [henabled]
  | true =>
      cases htext : fs.readText (Path.join folder r.location) with
      | error e => simp [RuleText.isAccepted]
      | ok text => simp [henabled, RuleText.isAccepted]

/-- Each rule of a folder has a binding at its place, with its name, its color and its switch. -/
theorem exists_binding {entries : List RuleEntry} {i : Nat} {r : RuleEntry}
    (h : entries[i]? = some r) :
    ∃ b, (compileRules compiler (entries.map (readSource fs folder))).set.bindings[i]? = some b ∧
      b.position = i ∧ b.name = r.name ∧ b.color = r.color ∧ b.enabled = r.enabled ∧
      (b.isActive = true ↔
        r.enabled = true ∧ ∃ text, fs.readText (Path.join folder r.location) = .ok text ∧
          (compiler (prepare text).expression).isOk = true) := by
  have hsource : (entries.map (readSource fs folder))[i]? = some (readSource fs folder r) := by
    rw [List.getElem?_map, h]
    rfl
  have hbinding : (compileRules compiler _).set.bindings[i]? = _ := bindings_compileRules hsource
  rw [RuleSource.bind_eq] at hbinding
  obtain ⟨hname, hcolor, henabled⟩ := (readSource fs folder r).binding_entry compiler
  rw [entry_readSource] at hname hcolor henabled
  have hactive := (readSource fs folder r).isActive_binding compiler
  refine ⟨_, hbinding, rfl, hname, hcolor, henabled, ?_⟩
  rw [← isUsable_readSource_iff, ← hactive]
  rfl

end RuleFolder

/-! ## reloading -/

namespace Session

section Reload

variable {s : Session} {load : List RuleEntry → Except RuleError LoadedRules}

theorem reload_of_error {e : RuleError} (h : load s.settings.rules = .error e) :
    s.reload load = (.error e, s) := by
  simp [reload, h]

theorem reload_of_ok {loaded : LoadedRules} (h : load s.settings.rules = .ok loaded) :
    s.reload load = (.ok (loaded.errors ++ (compileRules s.compiler loaded.sources).errors),
      { s with
        settings := { s.settings with rules := loaded.entries }
        rules := (compileRules s.compiler loaded.sources).set
        planner := s.planner.reset }) := by
  simp [reload, h, loadSources]

end Reload

/-- **Reloading.** It fails just when the folder cannot be read, and then nothing at all has changed. Else
the settings remember the rules that were found, and the bindings are those of these rules, one for each
in the same order; one can match something just when its rule is in use, the file can be read as text
and the text is accepted. All purchases are forgotten, and the rest of the session stays. -/
theorem reload_aligned (s : Session) (f : RuleFolder) (fs : FileSystem) :
    let result := s.reload (f.load fs)
    ((∃ e, result.1 = .error e) ↔ ∃ e, fs.readFolder (f.resolve fs).1 = .error e) ∧
      (∀ e, result.1 = .error e → result.2 = s) ∧
      ∀ errors, result.1 = .ok errors →
        ∃ loaded : LoadedRules, f.load fs s.settings.rules = .ok loaded ∧
          result.2 = { s with
            settings := { s.settings with rules := loaded.entries }
            rules := result.2.rules
            planner := s.planner.reset } ∧
          result.2.rules.bindings.length = loaded.entries.length ∧
          (∀ (i : Nat) (r : RuleEntry), loaded.entries[i]? = some r → ∃ b : Binding,
            result.2.rules.bindings[i]? = some b ∧ b.position = i ∧ b.name = r.name ∧ b.color = r.color ∧
            b.enabled = r.enabled ∧ (b.isActive = true ↔ r.enabled = true ∧ ∃ text,
              fs.readText (Path.join loaded.folder r.location) = .ok text ∧
                (s.compiler (prepare text).expression).isOk = true)) ∧
          ∀ key, result.2.planner.purchases key = 0 := by
  intro result
  cases hread : fs.readFolder (f.resolve fs).1 with
  | error e =>
      have hresult : result = _ := reload_of_error (f.load_of_error hread s.settings.rules)
      refine ⟨by simp [hresult], fun _ _ => congrArg Prod.snd hresult, fun errors herrors => ?_⟩
      rw [hresult] at herrors
      contradiction
  | ok names =>
      have hload := f.load_of_ok hread s.settings.rules
      have hresult : result = _ := reload_of_ok hload
      refine ⟨by simp [hresult], fun e he => ?_, fun errors _ => ⟨_, hload, ?_⟩⟩
      · rw [hresult] at he
        contradiction
      · rw [hresult]
        refine ⟨rfl, ?_, fun i r => RuleFolder.exists_binding, fun key => rfl⟩
        rw [bindings_eq_mapIdx, List.length_mapIdx, List.length_map]

/-! ## a folder with a file that is no text -/

/-- A file system with two rule files, of which the second is no text. -/
def desk : FileSystem :=
  .ofList [("rules", .ok (.folder ["on.ifl", "bad.ifl"])),
    ("rules/on.ifl", .ok (.file "true".toUTF8)), ("rules/bad.ifl", .ok (.file ⟨#[0xff]⟩))]

/-- Of three rules in use the first has no file, and the last one has no text. The others have a binding
each, and only that of the second rule can match anything. -/
theorem reload_aligned_of_desk :
    let rule (name location : String) : RuleEntry := { name, location, enabled := true }
    let on := rule "on" "on.ifl"
    let bad := rule "bad" "bad.ifl"
    let s := Session.new { rules := [rule "gone" "gone.ifl", on, bad] }
    let result := s.reload (RuleFolder.load ⟨"rules", none⟩ desk)
    ∃ errors, result.1 = .ok errors ∧ result.2.settings.rules = [on, bad] ∧
      result.2.rules.bindings.length = 2 ∧
      (∃ b : Binding, result.2.rules.bindings[0]? = some b ∧ b.name = "on" ∧ b.isActive = true) ∧
      ∃ b : Binding, result.2.rules.bindings[1]? = some b ∧ b.name = "bad" ∧ b.isActive = false := by
  intro rule on bad s result
  have hkept : s.settings.rules.filter (RuleFolder.isThere desk "rules") = [on, bad] := by
    decide +kernel
  have hfound : RuleFolder.found desk "rules" ["on.ifl", "bad.ifl"] s.settings.rules = [on, bad] := by
    rw [RuleFolder.found, hkept]
    refine RuleFolder.foldl_addNew_of_isNamed fun name hname => ?_
    have hlisted : name = "on.ifl" ∨ name = "bad.ifl" := by
      simpa using (RuleFolder.mem_ruleFiles.mp hname).1
    rcases hlisted with rfl | rfl <;> decide +kernel
  have hfolder : (RuleFolder.resolve ⟨"rules", none⟩ desk).1 = "rules" := rfl
  have hread : desk.readFolder (RuleFolder.resolve ⟨"rules", none⟩ desk).1 =
      .ok ["on.ifl", "bad.ifl"] := rfl
  have hload := RuleFolder.load_of_ok ⟨"rules", none⟩ hread s.settings.rules
  rw [hfolder, hfound] at hload
  have herrors : result.1 = .ok _ := congrArg Prod.fst (reload_of_ok hload)
  obtain ⟨-, -, hok⟩ := s.reload_aligned ⟨"rules", none⟩ desk
  obtain ⟨loaded, hloaded, hresult, hlength, hbinding, -⟩ := hok _ herrors
  obtain rfl := Except.ok.inj (hload.symm.trans hloaded)
  obtain ⟨b, hb, -, hname, -, -, hactive⟩ := hbinding 0 on rfl
  obtain ⟨b', hb', -, hname', -, -, hactive'⟩ := hbinding 1 bad rfl
  have htext : desk.readText (Path.join "rules" "on.ifl") = .ok "true" := by decide +kernel
  have hnone : desk.readText (Path.join "rules" "bad.ifl") = .error .notText := by decide +kernel
  have haccepted : (Filter.compile (prepare "true").expression).isOk = true := by decide +kernel
  have hinactive : ¬ b'.isActive = true := by
    intro h
    obtain ⟨-, text, htext', -⟩ := hactive'.mp h
    have hclash := hnone.symm.trans htext'
    contradiction
  exact ⟨_, herrors, congrArg (·.settings.rules) hresult, hlength,
    ⟨b, hb, hname, hactive.mpr ⟨rfl, "true", htext, haccepted⟩⟩,
    b', hb', hname', Bool.eq_false_iff.mpr hinactive⟩

end Session

end ShopLens
