import ShopLens.Command.Check
import ShopLens.Proofs.Rule.Bindings
import ShopLens.Proofs.Rule.Folder

/-!
# ShopLens.Proofs.Command.Check

Which rule files are found, and which of them are checked. Names that differ in letter case only are
taken for one name when rules are looked for, but on a case-sensitive file system
(`FileSystem.CaseSensitive`) they name different files.

* `RuleFolder.exists_location_iff` — a rule file is found if it was remembered, or if it is the first of all
  files of its letters (`RuleFolder.Leads`) and none of them was;
* `exit_checkFolder_iff` — with nothing remembered, the check is about those first files alone.

`RuleFolder.load_complete_iff` puts both together.
-/

namespace ShopLens

open ShopLens.Text
open ShopLens.Rule (prepare)

/-! ## names in another letter case -/

theorem Text.sameLetters_refl (s : String) : sameLetters s s = true := sameLetters_iff.mpr rfl

theorem Text.sameLetters_comm (s t : String) : sameLetters s t = sameLetters t s := Bool.beq_comm

theorem Path.toLower_eq_dot {c : Char} : c.toLower = '.' ↔ c = '.' := by
  constructor
  · intro h
    unfold Char.toLower at h
    split at h
    · next hupper =>
      obtain ⟨hlow, hhigh⟩ := hupper
      have hval : c.val + ('a'.val - 'A'.val) = '.'.val := congrArg Char.val h
      have hlow : 65 ≤ c.val.toNat := by simpa [UInt32.le_iff_toNat_le] using hlow
      have hhigh : c.val.toNat ≤ 90 := by simpa [UInt32.le_iff_toNat_le] using hhigh
      have hdot : (c.val.toNat + 32) % 4294967296 = 46 := by
        simpa using congrArg UInt32.toNat hval
      omega
    · exact h
  · rintro rfl
    rfl

/-- The extension of a name in small letters. -/
theorem Path.extension?_lowered (name : String) :
    extension? (lowered name) = (extension? name).map lowered := by
  have hdot : (fun c : Char => decide (c ≠ '.')) ∘ Char.toLower = fun c => decide (c ≠ '.') := by
    funext c
    simp [Path.toLower_eq_dot]
  unfold extension?
  simp only [lowered, lower, String.toList_ofList, ← List.map_reverse, List.dropWhile_map,
    List.takeWhile_map, hdot]
  cases name.toList.reverse.dropWhile fun c => decide (c ≠ '.') with
  | nil => rfl
  | cons c cs => cases cs <;> simp [lowered, lower]

/-- File names that differ in letter case only are told apart: a file that can be had under such a name is
listed under it. -/
def FileSystem.CaseSensitive (fs : FileSystem) : Prop :=
  ∀ folder names, fs.readFolder folder = .ok names → ∀ name ∈ names, ∀ name',
    sameLetters name' name = true → fs.isFile (Path.join folder name') = true → name' ∈ names

namespace RuleFolder

/-! ## rule files -/

/-- Whether a name comes before all others that differ from it in letter case only. -/
def Leads (names : List String) (name : String) : Prop :=
  ∀ name' ∈ names, sameLetters name' name = true → name ≤ name'

section Files

variable {fs : FileSystem} {folder name name' : String} {names : List String}
  {entries remembered : List RuleEntry} {r : RuleEntry}

theorem isNamed_congr (entries : List RuleEntry) (h : sameLetters name name' = true) :
    isNamed entries name = isNamed entries name' := by
  simp only [isNamed, sameLetters, sameLetters_iff.mp h]

theorem isNamed_of_mem (h : r ∈ entries) : isNamed entries r.location = true :=
  List.any_eq_true.mpr ⟨r, h, sameLetters_refl r.location⟩

/-- Rule files have their extension in any letter case. -/
theorem isRuleFile_iff : isRuleFile fs folder name = true ↔
    fs.isFile (Path.join folder name) = true ∧
      Path.extension? (lowered name) = some ruleExtension := by
  have hlowered : lowered ruleExtension = ruleExtension := by decide
  rw [isRuleFile, Bool.and_eq_true_iff, Path.extension?_lowered]
  cases Path.extension? name <;> simp [sameLetters, hlowered]

/-- A file whose name differs from that of a rule file in letter case only is a rule file too. -/
theorem mem_ruleFiles_of_sameLetters (hcase : fs.CaseSensitive)
    (hread : fs.readFolder folder = .ok names) (hname : name ∈ ruleFiles fs folder names)
    (hsame : sameLetters name' name = true) (hfile : fs.isFile (Path.join folder name') = true) :
    name' ∈ ruleFiles fs folder names := by
  obtain ⟨hlisted, hrule⟩ := mem_ruleFiles.mp hname
  refine mem_ruleFiles.mpr ⟨hcase folder names hread name hlisted name' hsame hfile, ?_⟩
  rw [isRuleFile_iff, sameLetters_iff.mp hsame]
  exact ⟨hfile, (isRuleFile_iff.mp hrule).2⟩

/-- A rule that was remembered and has a rule file is kept. -/
theorem mem_kept (hr : r ∈ remembered) (hfile : r.location ∈ ruleFiles fs folder names) :
    r ∈ remembered.filter (isThere fs folder) :=
  List.mem_filter.mpr ⟨hr, (isRuleFile_iff.mp (mem_ruleFiles.mp hfile).2).1⟩

/-- A rule that was not there before is for the first of all names of its letters. -/
theorem mem_foldl_addNew (hsorted : names.Pairwise (· ≤ ·)) (h : r ∈ names.foldl addNew entries) :
    r ∈ entries ∨ isNamed entries r.location = false ∧ Leads names r.location := by
  induction names generalizing entries with
  | nil => exact .inl h
  | cons name names ih =>
      obtain ⟨hle, hsorted⟩ := List.pairwise_cons.mp hsorted
      rcases ih hsorted h with hmem | ⟨hnone, hleads⟩
      · cases hnamed : isNamed entries name with
        | true => exact .inl (addNew_of_isNamed hnamed ▸ hmem)
        | false =>
            rw [addNew_of_not_isNamed hnamed] at hmem
            rcases List.mem_append.mp hmem with hold | hnew
            · exact .inl hold
            · obtain rfl := List.mem_singleton.mp hnew
              refine .inr ⟨hnamed, List.forall_mem_cons.mpr ⟨fun _ => String.le_refl name, ?_⟩⟩
              exact fun name' hname' _ => hle name' hname'
      · have hbefore : isNamed entries r.location = false := by
          by_contra hnamed
          have hstill := isNamed_foldl_of_isNamed (Bool.not_eq_false _ ▸ hnamed) [name]
          exact absurd (hnone.symm.trans hstill) (by decide)
        refine .inr ⟨hbefore, List.forall_mem_cons.mpr ⟨fun hsame => ?_, hleads⟩⟩
        have hnamed := isNamed_addNew entries name
        rw [isNamed_congr _ hsame, hnone] at hnamed
        contradiction

/-- Of the rule files of the same letters those that were remembered are found, or else the first. -/
theorem exists_location_iff (hcase : fs.CaseSensitive) (hread : fs.readFolder folder = .ok names)
    (hname : name ∈ ruleFiles fs folder names) :
    (∃ r ∈ found fs folder names remembered, r.location = name) ↔
      (∃ r ∈ remembered, r.location = name) ∨
        ∀ name' ∈ ruleFiles fs folder names, sameLetters name' name = true →
          name ≤ name' ∧ ∀ r ∈ remembered, r.location ≠ name' := by
  have hsorted := pairwise_sortNames (names.filter (isRuleFile fs folder))
  constructor
  · rintro ⟨r, hr, rfl⟩
    rcases mem_foldl_addNew hsorted hr with hkept | ⟨hnone, hleads⟩
    · exact .inl ⟨r, (List.mem_filter.mp hkept).1, rfl⟩
    · refine .inr fun name' hname' hsame => ⟨hleads name' hname' hsame, ?_⟩
      rintro r' hr' rfl
      have hnamed := isNamed_of_mem (mem_kept hr' hname')
      rw [isNamed_congr _ hsame] at hnamed
      exact absurd (hnone.symm.trans hnamed) (by decide)
  · rintro (⟨r, hr, rfl⟩ | hfirst)
    · obtain ⟨added, heq, -⟩ := exists_added fs folder names remembered
      exact ⟨r, heq ▸ List.mem_append_left added (mem_kept hr hname), rfl⟩
    · obtain ⟨hlisted, hrule⟩ := mem_ruleFiles.mp hname
      obtain ⟨r, hr, hsame⟩ : ∃ r ∈ found fs folder names remembered,
          sameLetters r.location name = true := exists_sameLetters_found hlisted hrule
      have hother : r.location ∈ ruleFiles fs folder names :=
        mem_ruleFiles_of_sameLetters hcase hread hname hsame (isThere_of_mem_found hr)
      obtain ⟨hle, hforgotten⟩ := hfirst r.location hother hsame
      rcases mem_foldl_addNew hsorted hr with hkept | ⟨-, hleads⟩
      · exact absurd rfl (hforgotten r (List.mem_filter.mp hkept).1)
      · rw [sameLetters_comm] at hsame
        exact ⟨r, hr, String.le_antisymm (hleads name hname hsame) hle⟩

/-- All rule files are found just when, of any two whose names differ in letter case only, both were
remembered. -/
theorem forall_exists_location_iff (hcase : fs.CaseSensitive)
    (hread : fs.readFolder folder = .ok names) :
    (∀ name ∈ ruleFiles fs folder names, ∃ r ∈ found fs folder names remembered, r.location = name) ↔
      ∀ name ∈ ruleFiles fs folder names, ∀ name' ∈ ruleFiles fs folder names,
        sameLetters name name' = true → name ≠ name' → ∃ r ∈ remembered, r.location = name := by
  constructor
  · intro hall name hname name' hname' hsame hne
    rcases (exists_location_iff hcase hread hname).mp (hall name hname) with hremembered | hfirst
    · exact hremembered
    · rw [sameLetters_comm] at hsame
      obtain ⟨hle, hforgotten⟩ := hfirst name' hname' hsame
      rcases (exists_location_iff hcase hread hname').mp (hall name' hname') with
        ⟨r, hr, hlocation⟩ | hfirst'
      · exact absurd hlocation (hforgotten r hr)
      · rw [sameLetters_comm] at hsame
        exact absurd (String.le_antisymm hle (hfirst' name hname hsame).1) hne
  · intro htwins name hname
    refine (exists_location_iff hcase hread hname).mpr ?_
    by_cases hremembered : ∃ r ∈ remembered, r.location = name
    · exact .inl hremembered
    · refine .inr fun name' hname' hsame => ?_
      rw [sameLetters_comm] at hsame
      have heq : name = name' := by
        by_contra hne
        exact hremembered (htwins name hname name' hname' hsame hne)
      subst heq
      exact ⟨String.le_refl name, fun r hr hlocation => hremembered ⟨r, hr, hlocation⟩⟩

/-- The rules as a check loads them. -/
def switchedOn (entries : List RuleEntry) : List RuleEntry :=
  entries.map fun r => { r with enabled := true }

theorem isThere_of_mem_switchedOn (h : r ∈ switchedOn (found fs folder names remembered)) :
    isThere fs folder r = true := by
  obtain ⟨r', hr', rfl⟩ := List.mem_map.mp h
  exact isThere_of_mem_found (r := r') hr'

/-- What was found is found again after all of it was switched on. -/
theorem found_switchedOn :
    found fs folder names (switchedOn (found fs folder names remembered)) =
      switchedOn (found fs folder names remembered) := by
  have hkept : (switchedOn (found fs folder names remembered)).filter (isThere fs folder) =
      switchedOn (found fs folder names remembered) :=
    List.filter_eq_self.mpr fun r hr => isThere_of_mem_switchedOn hr
  rw [found, hkept]
  refine foldl_addNew_of_isNamed fun name hname => ?_
  have hnamed : isNamed (found fs folder names remembered) name = true := isNamed_foldl hname
  rw [switchedOn, isNamed, List.any_map]
  exact hnamed

theorem missing_switchedOn :
    missing fs folder (switchedOn (found fs folder names remembered)) = [] := by
  have hnone : (switchedOn (found fs folder names remembered)).filter (!isThere fs folder ·) = [] :=
    List.filter_eq_nil_iff.mpr fun r hr => by simp [isThere_of_mem_switchedOn hr]
  rw [missing, hnone, List.map_nil]

/-- With nothing remembered, the first of all rule files of the same letters are found. -/
theorem exists_location_nil_iff (hcase : fs.CaseSensitive) (hread : fs.readFolder folder = .ok names) :
    (∃ r ∈ found fs folder names [], r.location = name) ↔
      name ∈ ruleFiles fs folder names ∧ Leads (ruleFiles fs folder names) name := by
  constructor
  · rintro ⟨r, hr, rfl⟩
    obtain ⟨added, heq, -, hadded⟩ := exists_added fs folder names []
    obtain rfl : found fs folder names [] = added := heq
    obtain ⟨-, hlisted, hrule, -⟩ := hadded r hr
    have hname := mem_ruleFiles.mpr ⟨hlisted, hrule⟩
    rcases (exists_location_iff hcase hread hname).mp ⟨r, hr, rfl⟩ with ⟨r', hr', -⟩ | hfirst
    · contradiction
    · exact ⟨hname, fun name' hname' hsame => (hfirst name' hname' hsame).1⟩
  · rintro ⟨hname, hleads⟩
    refine (exists_location_iff hcase hread hname).mpr (.inr fun name' hname' hsame => ?_)
    exact ⟨hleads name' hname' hsame, nofun⟩

end Files

/-- A check loads what is found with nothing remembered. -/
theorem loadAll_of_ok (f : RuleFolder) {fs : FileSystem} {names : List String}
    (h : fs.readFolder (f.resolve fs).1 = .ok names) :
    let entries := switchedOn (found fs (f.resolve fs).1 names [])
    f.loadAll fs = .ok
      { folder := (f.resolve fs).1
        entries
        sources := entries.map (readSource fs (f.resolve fs).1)
        errors := (f.resolve fs).2 } := by
  intro entries
  have hagain : f.loadAll fs = f.load fs entries := by
    rw [loadAll, f.load_of_ok h]
    rfl
  rw [hagain, f.load_of_ok h, found_switchedOn, missing_switchedOn, List.append_nil]

end RuleFolder

/-! ## the check -/

theorem Report.exit_answer_iff {out : String} {holds : Bool} :
    (Report.answer out holds).exit = 0 ↔ holds = true := by
  cases holds <;> simp [answer]

/-- Whether a file can be read and holds a rule that compiles. -/
def RuleFolder.Compiles (fs : FileSystem) (folder name : String) : Prop :=
  ∃ text, fs.readText (Path.join folder name) = .ok text ∧
    (Filter.compile (prepare text).expression).isOk = true

section Check

variable {fs : FileSystem} {folder : String} {names : List String}

/-- A rule that is switched on passes if its file can be read and compiles. -/
theorem checkSource_readSource_iff {r : RuleEntry} (h : r.enabled = true) (verbose : Bool) :
    (checkSource verbose (RuleFolder.readSource fs folder r)).2 = true ↔
      RuleFolder.Compiles fs folder r.location := by
  rw [RuleFolder.readSource, if_pos h, RuleFolder.Compiles]
  cases fs.readText (Path.join folder r.location) with
  | error e => simp [checkSource]
  | ok text =>
      have herrors : ((Session.new {}).loadSources [⟨r, .loaded text⟩]).1 =
          (RuleSource.error? Filter.compile ⟨r, .loaded text⟩).toList :=
        errors_eq_filterMap _
      have hnone : RuleSource.error? Filter.compile ⟨r, .loaded text⟩ = none ↔
          (Filter.compile (prepare text).expression).isOk = true :=
        RuleSource.error?_eq_none_iff Filter.compile h
      simp only [checkSource, herrors]
      cases herror : RuleSource.error? Filter.compile ⟨r, .loaded text⟩ with
      | none => simpa using hnone.mp herror
      | some e => simpa [herror] using hnone

/-- A check finds no fault just when the first of all rule files of the same letters can be read and
compile. -/
theorem exit_checkFolder_iff (hcase : fs.CaseSensitive) (f : RuleFolder)
    (hread : fs.readFolder (f.resolve fs).1 = .ok names) (verbose : Bool) :
    let files := RuleFolder.ruleFiles fs (f.resolve fs).1 names
    (checkFolder fs f verbose).exit = 0 ↔ ∀ name ∈ files, RuleFolder.Leads files name →
      RuleFolder.Compiles fs (f.resolve fs).1 name := by
  intro files
  have hsources : (checkFolder fs f verbose).exit = 0 ↔
      ∀ r ∈ RuleFolder.found fs (f.resolve fs).1 names [],
        RuleFolder.Compiles fs (f.resolve fs).1 r.location := by
    rw [checkFolder, f.loadAll_of_ok hread]
    simp only [Report.exit_answer_iff, RuleFolder.switchedOn, List.map_map, List.all_map,
      List.all_eq_true, Function.comp_apply]
    exact forall₂_congr fun r _ => checkSource_readSource_iff rfl verbose
  rw [hsources]
  constructor
  · intro hall name hname hleads
    obtain ⟨r, hr, rfl⟩ := (RuleFolder.exists_location_nil_iff hcase hread).mpr ⟨hname, hleads⟩
    exact hall r hr
  · intro hall r hr
    obtain ⟨hname, hleads⟩ := (RuleFolder.exists_location_nil_iff hcase hread).mp ⟨r, hr, rfl⟩
    exact hall r.location hname hleads

/-- **Looking for all rule files.** On a case-sensitive file system a rule file is found if it was
remembered, or if it is the first of all files whose names differ in letter case only and none of those was.
So all are found just when, of any two whose names differ in letter case only, both were remembered. To check
a folder finds no fault just when the first of all files of the same letters can be read and compile; the
others are not looked at. -/
theorem RuleFolder.load_complete_iff (f : RuleFolder) (hcase : fs.CaseSensitive)
    (hread : fs.readFolder (f.resolve fs).1 = .ok names) (remembered : List RuleEntry) :
    let folder := (f.resolve fs).1
    let files := ruleFiles fs folder names
    ∃ loaded, f.load fs remembered = .ok loaded ∧
      (∀ name ∈ files, (∃ r ∈ loaded.entries, r.location = name) ↔
        (∃ r ∈ remembered, r.location = name) ∨ ∀ name' ∈ files, sameLetters name' name = true →
          name ≤ name' ∧ ∀ r ∈ remembered, r.location ≠ name') ∧
      ((∀ name ∈ files, ∃ r ∈ loaded.entries, r.location = name) ↔
        ∀ name ∈ files, ∀ name' ∈ files, sameLetters name name' = true → name ≠ name' →
          ∃ r ∈ remembered, r.location = name) ∧
      ∀ verbose, (checkFolder fs f verbose).exit = 0 ↔
        ∀ name ∈ files, (∀ name' ∈ files, sameLetters name' name = true → name ≤ name') →
          ∃ text, fs.readText (Path.join folder name) = .ok text ∧
            (Filter.compile (prepare text).expression).isOk = true :=
  ⟨_, f.load_of_ok hread remembered, fun _ => exists_location_iff hcase hread,
    forall_exists_location_iff hcase hread, exit_checkFolder_iff hcase f hread⟩

end Check

/-! ## two files of the same letters -/

/-- What can be had of a list was listed. -/
theorem FileSystem.mem_of_look_ofList {entries : List (String × Except FileError Entry)} {path : String}
    {entry : Entry} (h : (ofList entries).look path = .ok entry) : (path, .ok entry) ∈ entries := by
  simp only [ofList] at h
  cases hlookup : entries.lookup path with
  | none => simp [hlookup] at h
  | some e =>
      obtain rfl : e = .ok entry := by simpa [hlookup] using h
      obtain ⟨before, after, heq, -⟩ := List.lookup_eq_some_iff.mp hlookup
      simp [heq]

/-- A name is told from its path in a folder, unless the path is absolute. -/
theorem Path.eq_of_join_eq {base name name' : String} (hbase : (base.isEmpty || base.endsWith "/") = false)
    (hpath : (base ++ "/" ++ name).startsWith "/" = false)
    (h : join base name' = base ++ "/" ++ name) : name' = name := by
  unfold join at h
  split at h
  · next hstart =>
    rw [h, hpath] at hstart
    contradiction
  · rw [hbase, if_neg (by decide)] at h
    exact (String.append_right_inj _).mp h

namespace RuleFolder

/-- A file system with a folder of two rule files whose names differ in letter case only. The second one is
no text. -/
def twins : FileSystem :=
  .ofList [("rules", .ok (.folder ["a.ifl", "A.ifl"])), ("rules/A.ifl", .ok (.file "true".toUTF8)),
    ("rules/a.ifl", .ok (.file ⟨#[0xff]⟩))]

theorem caseSensitive_twins : twins.CaseSensitive := by
  intro folder names hread _ _ name' _ hfile
  obtain ⟨rfl, rfl⟩ : folder = "rules" ∧ names = ["a.ifl", "A.ifl"] := by
    unfold FileSystem.readFolder at hread
    split at hread
    · contradiction
    · contradiction
    · next hlook =>
      obtain rfl := Except.ok.inj hread
      simpa using FileSystem.mem_of_look_ofList hlook
  have hpath : Path.join "rules" name' = "rules/A.ifl" ∨ Path.join "rules" name' = "rules/a.ifl" := by
    unfold FileSystem.isFile at hfile
    split at hfile
    · next hlook =>
      have hmem := FileSystem.mem_of_look_ofList hlook
      simp only [List.mem_cons, Prod.mk.injEq, List.not_mem_nil, or_false] at hmem
      rcases hmem with ⟨-, hfolder⟩ | ⟨heq, -⟩ | ⟨heq, -⟩
      · exact absurd (Except.ok.inj hfolder) nofun
      · exact .inl heq
      · exact .inr heq
    · contradiction
  rcases hpath with heq | heq
  · obtain rfl : name' = "A.ifl" := Path.eq_of_join_eq (by decide +kernel) (by decide +kernel) heq
    decide
  · obtain rfl : name' = "a.ifl" := Path.eq_of_join_eq (by decide +kernel) (by decide +kernel) heq
    decide

theorem ruleFiles_twins : ruleFiles twins "rules" ["a.ifl", "A.ifl"] = ["A.ifl", "a.ifl"] := by
  have hlisted : ["a.ifl", "A.ifl"].filter (isRuleFile twins "rules") = ["a.ifl", "A.ifl"] := by
    decide +kernel
  rw [ruleFiles, hlisted]
  exact sortNames_eq (by decide) (by decide)

theorem compiles_of_leads_twins : ∀ name ∈ ["A.ifl", "a.ifl"], Leads ["A.ifl", "a.ifl"] name →
    Compiles twins "rules" name := by
  intro name hname hleads
  rcases List.mem_pair.mp hname with rfl | rfl
  · exact ⟨"true", by decide +kernel, by decide +kernel⟩
  · exact absurd (hleads "A.ifl" (by decide) (by decide)) (by decide)

/-- Both are found if both were remembered, but the check looks at the first one only. -/
theorem load_of_twins :
    let f : RuleFolder := ⟨"rules", none⟩
    let remembered : List RuleEntry := [{ name := "one", location := "a.ifl" },
      { name := "other", location := "A.ifl" }]
    twins.CaseSensitive ∧ twins.readFolder (f.resolve twins).1 = .ok ["a.ifl", "A.ifl"] ∧
      (∃ loaded, f.load twins remembered = .ok loaded ∧
        (∃ r ∈ loaded.entries, r.location = "a.ifl") ∧ ∃ r ∈ loaded.entries, r.location = "A.ifl") ∧
      (checkFolder twins f false).exit = 0 := by
  intro f remembered
  obtain ⟨loaded, hload, -, hall, hcheck⟩ := f.load_complete_iff caseSensitive_twins rfl remembered
  have hfiles : ruleFiles twins (f.resolve twins).1 ["a.ifl", "A.ifl"] = ["A.ifl", "a.ifl"] :=
    ruleFiles_twins
  rw [hfiles] at hall hcheck
  have hfound := hall.mpr (by decide)
  exact ⟨caseSensitive_twins, rfl, ⟨loaded, hload, hfound _ (by simp), hfound _ (by simp)⟩,
    (hcheck false).mpr compiles_of_leads_twins⟩

/-- With nothing remembered the other file is lost, and the check finds no fault though it cannot be
read. -/
theorem load_loses_twin :
    let f : RuleFolder := ⟨"rules", none⟩
    twins.CaseSensitive ∧ twins.readFolder "rules" = .ok ["a.ifl", "A.ifl"] ∧
      isRuleFile twins "rules" "a.ifl" = true ∧
      (∃ loaded, f.load twins [] = .ok loaded ∧ loaded.folder = "rules" ∧
        ∀ r ∈ loaded.entries, r.location ≠ "a.ifl") ∧
      (checkFolder twins f false).exit = 0 ∧
      twins.readText (Path.join "rules" "a.ifl") = .error .notText := by
  intro f
  have hcheck := exit_checkFolder_iff caseSensitive_twins f rfl false
  have hfiles : ruleFiles twins (f.resolve twins).1 ["a.ifl", "A.ifl"] = ["A.ifl", "a.ifl"] :=
    ruleFiles_twins
  rw [hfiles] at hcheck
  have hfound : found twins "rules" ["a.ifl", "A.ifl"] [] = [newRule "A.ifl"] := by
    rw [found, ruleFiles_twins]
    decide +kernel
  refine ⟨caseSensitive_twins, rfl, by decide +kernel, ⟨_, f.load_of_ok rfl [], rfl, ?_⟩,
    hcheck.mpr compiles_of_leads_twins, by decide +kernel⟩
  show ∀ r ∈ found twins "rules" ["a.ifl", "A.ifl"] [], r.location ≠ "a.ifl"
  rw [hfound]
  decide

end RuleFolder

end ShopLens
