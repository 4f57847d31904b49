import ShopLens.Rule.Folder

/-!
# ShopLens.Proofs.Rule.Folder

What is found in a rule folder. A folder lists its names in no particular order, so one file system
stands for many (`FileSystem.SameUpToOrder`), and what is found is the same in all of them.

* New rule files are added in the order of their names, each unless a rule names it already
  (`RuleFolder.exists_news`), so they come in strictly increasing order behind the rules that are kept.
* Every rule file is named afterwards (`RuleFolder.isNamed_foldl`), so a second look adds nothing.
* `RuleFolder.load_ordered` — the main statement, for the result as a whole.
-/

namespace ShopLens

/-! ## listings in another order -/

/-- The same stands at a place, but for the order of the names in a folder. -/
inductive SameEntry : Except FileError Entry → Except FileError Entry → Prop
  | error (e : FileError) : SameEntry (.error e) (.error e)
  | file (content : ByteArray) : SameEntry (.ok (.file content)) (.ok (.file content))
  | folder {names names' : List String} (h : names.Perm names') :
      SameEntry (.ok (.folder names)) (.ok (.folder names'))

theorem SameEntry.refl (entry : Except FileError Entry) : SameEntry entry entry := by
  cases entry with
  | error e => exact .error e
  | ok entry =>
      cases entry with
      | file content => exact .file content
      | folder names => exact .folder (.refl names)

namespace FileSystem

/-- Two file systems hold the same, but may list the names in a folder in different orders. -/
def SameUpToOrder (fs fs' : FileSystem) : Prop := ∀ path, SameEntry (fs.look path) (fs'.look path)

section SameUpToOrder

variable {fs fs' : FileSystem} (h : fs.SameUpToOrder fs')

include h

theorem SameUpToOrder.isFile_eq : fs'.isFile = fs.isFile := by
  funext path
  have hpath := h path
  unfold isFile
  generalize fs.look path = entry, fs'.look path = entry' at hpath
  cases hpath <;> rfl

theorem SameUpToOrder.isFolder_eq : fs'.isFolder = fs.isFolder := by
  funext path
  have hpath := h path
  unfold isFolder
  generalize fs.look path = entry, fs'.look path = entry' at hpath
  cases hpath <;> rfl

theorem SameUpToOrder.readText_eq : fs'.readText = fs.readText := by
  funext path
  have hpath := h path
  unfold readText
  generalize fs.look path = entry, fs'.look path = entry' at hpath
  cases hpath <;> rfl

/-- A folder lists the same names in both, or cannot be read in either for the same reason. -/
theorem SameUpToOrder.readFolder_cases (path : String) :
    (∃ e, fs.readFolder path = .error e ∧ fs'.readFolder path = .error e) ∨
      ∃ names names', names.Perm names' ∧ fs.readFolder path = .ok names ∧
        fs'.readFolder path = .ok names' := by
  have hpath := h path
  unfold readFolder
  generalize fs.look path = entry, fs'.look path = entry' at hpath
  cases hpath with
  | error e => exact .inl ⟨e, rfl, rfl⟩
  | file content => exact .inl ⟨.notFolder, rfl, rfl⟩
  | folder hnames => exact .inr ⟨_, _, hnames, rfl, rfl⟩

end SameUpToOrder

end FileSystem

/-! ## sorted names -/

theorem pairwise_sortNames (names : List String) : (names.mergeSort (· ≤ ·)).Pairwise (· ≤ ·) := by
  have hsorted : (names.mergeSort (· ≤ ·)).Pairwise fun s t => decide (s ≤ t) = true := by
    refine List.pairwise_mergeSort (fun s t u hst htu => ?_) (fun s t => ?_) names
    · simp only [decide_eq_true_eq] at hst htu ⊢
      exact String.le_trans hst htu
    · simpa using String.le_total s t
  exact hsorted.imp of_decide_eq_true

/-- There is one sorted list of some names. -/
theorem sortNames_eq {names sorted : List String} (h : names.Perm sorted)
    (hsorted : sorted.Pairwise (· ≤ ·)) : names.mergeSort (· ≤ ·) = sorted := by
  have hperm : (names.mergeSort (· ≤ ·)).Perm sorted := (names.mergeSort_perm _).trans h
  exact List.Perm.eq_of_pairwise (fun _ _ _ _ => String.le_antisymm) (pairwise_sortNames names)
    hsorted hperm

/-- Whether a rule file was not found. -/
def RuleError.isMissingFile : RuleError → Bool
  | missingFile _ _ => true
  | _ => false

namespace RuleFolder

/-! ## new rule files -/

/-- The rule of a rule file that is new. -/
def newRule (name : String) : RuleEntry := { name, location := name }

/-- Whether a rule names a file, in any letter case. -/
def isNamed (entries : List RuleEntry) (name : String) : Bool :=
  entries.any (Text.sameLetters ·.location name)

section New

variable {entries : List RuleEntry} {name : String} {names : List String}

theorem addNew_of_isNamed (h : isNamed entries name = true) : addNew entries name = entries :=
  if_pos h

theorem addNew_of_not_isNamed (h : isNamed entries name = false) :
    addNew entries name = entries ++ [newRule name] :=
  if_neg (by rw [← isNamed, h]; decide)

theorem isNamed_append (entries more : List RuleEntry) (name : String) :
    isNamed (entries ++ more) name = (isNamed entries name || isNamed more name) := List.any_append

theorem isNamed_newRule (name name' : String) :
    isNamed [newRule name] name' = Text.sameLetters name name' := by
  simp [isNamed, newRule]

theorem isNamed_addNew (entries : List RuleEntry) (name : String) :
    isNamed (addNew entries name) name = true := by
  cases h : isNamed entries name with
  | true => rw [addNew_of_isNamed h, h]
  | false =>
      have hself : Text.sameLetters name name = true := Text.sameLetters_iff.mpr rfl
      rw [addNew_of_not_isNamed h, isNamed_append, isNamed_newRule, hself, Bool.or_true]

/-- The rules for new files stand behind those there are. They are for some of the names, in their order,
and no two of all the rules name the same file. -/
theorem exists_news (entries : List RuleEntry) (names : List String) :
    ∃ news : List String, news.Sublist names ∧
      names.foldl addNew entries = entries ++ news.map newRule ∧
      (∀ name ∈ news, isNamed entries name = false) ∧
      news.Pairwise fun name name' => Text.sameLetters name name' = false := by
  induction names generalizing entries with
  | nil => exact ⟨[], .slnil, by simp, by simp, .nil⟩
  | cons name names ih =>
      obtain ⟨news, hsub, heq, hnew, happart⟩ := ih (addNew entries name)
      rw [List.foldl_cons, heq]
      cases h : isNamed entries name with
      | true =>
          rw [addNew_of_isNamed h] at hnew ⊢
          exact ⟨news, hsub.cons name, rfl, hnew, happart⟩
      | false =>
          rw [addNew_of_not_isNamed h] at hnew ⊢
          have hboth : ∀ name' ∈ news, isNamed entries name' = false ∧
              Text.sameLetters name name' = false := by
            intro name' hname'
            have hnone := hnew name' hname'
            rw [isNamed_append, isNamed_newRule] at hnone
            exact Bool.or_eq_false_iff.mp hnone
          refine ⟨name :: news, hsub.cons_cons name, by simp, ?_, ?_⟩
          · exact List.forall_mem_cons.mpr ⟨h, fun name' hname' => (hboth name' hname').1⟩
          · exact .cons (fun name' hname' => (hboth name' hname').2) happart

/-- What is named stays named. -/
theorem isNamed_foldl_of_isNamed (h : isNamed entries name = true) (names : List String) :
    isNamed (names.foldl addNew entries) name = true := by
  obtain ⟨news, -, heq, -⟩ := exists_news entries names
  rw [heq, isNamed_append, h, Bool.true_or]

/-- All files are named in the end. -/
theorem isNamed_foldl (h : name ∈ names) : isNamed (names.foldl addNew entries) name = true := by
  induction names generalizing entries with
  | nil => contradiction
  | cons name' names ih =>
      rcases List.mem_cons.mp h with rfl | hmem
      · exact isNamed_foldl_of_isNamed (isNamed_addNew entries name) names
      · exact ih hmem

/-- Where all files are named, none is new. -/
theorem foldl_addNew_of_isNamed (h : ∀ name ∈ names, isNamed entries name = true) :
    names.foldl addNew entries = entries := by
  induction names with
  | nil => rfl
  | cons name names ih =>
      obtain ⟨hname, hnames⟩ := List.forall_mem_cons.mp h
      rw [List.foldl_cons, addNew_of_isNamed hname]
      exact ih hnames

/-- Names that are sorted and differ in more than letter case increase strictly. -/
theorem pairwise_lt_of_news {news : List String} (hsub : news.Sublist names)
    (hsorted : names.Pairwise (· ≤ ·))
    (happart : news.Pairwise fun name name' => Text.sameLetters name name' = false) :
    news.Pairwise (· < ·) := by
  refine (hsorted.sublist hsub).imp₂ ?_ happart
  intro name name' hle hdiffer
  have hne : name ≠ name' := by
    rintro rfl
    rw [Text.sameLetters_iff.mpr rfl] at hdiffer
    contradiction
  exact Std.lt_of_le_of_ne hle hne

end New

/-! ## loading -/

/-- The rule files among the names in a folder, in order. -/
def ruleFiles (fs : FileSystem) (folder : String) (names : List String) : List String :=
  (names.filter (isRuleFile fs folder)).mergeSort (· ≤ ·)

/-- Whether the file of a rule is in a folder. -/
def isThere (fs : FileSystem) (folder : String) (r : RuleEntry) : Bool :=
  fs.isFile (Path.join folder r.location)

/-- What is found in a folder that lists some names, apart from errors of the folder. -/
def found (fs : FileSystem) (folder : String) (names : List String) (remembered : List RuleEntry) :
    List RuleEntry :=
  (ruleFiles fs folder names).foldl addNew (remembered.filter (isThere fs folder))

/-- An error for each rule whose file is not in a folder. -/
def missing (fs : FileSystem) (folder : String) (remembered : List RuleEntry) : List RuleError :=
  (remembered.filter (!isThere fs folder ·)).map fun r =>
    .missingFile r.name (Path.join folder r.location)

section Load

variable (f : RuleFolder) {fs fs' : FileSystem} {folder name : String} {names : List String}
  {remembered : List RuleEntry}

theorem mem_ruleFiles :
    name ∈ ruleFiles fs folder names ↔ name ∈ names ∧ isRuleFile fs folder name = true := by
  rw [ruleFiles, List.mem_mergeSort, List.mem_filter]

/-- A folder that cannot be read gives an error and nothing else. -/
theorem load_of_error {e : FileError} (h : fs.readFolder (f.resolve fs).1 = .error e)
    (remembered : List RuleEntry) :
    f.load fs remembered = .error (.folder (f.resolve fs).1 e) := by
  simp [load, discover, h]

/-- Of a folder that can be read the rules are kept whose file is there, new ones are added, and the
texts are read. -/
theorem load_of_ok (h : fs.readFolder (f.resolve fs).1 = .ok names) (remembered : List RuleEntry) :
    f.load fs remembered = .ok
      { folder := (f.resolve fs).1
        entries := found fs (f.resolve fs).1 names remembered
        sources := (found fs (f.resolve fs).1 names remembered).map (readSource fs (f.resolve fs).1)
        errors := (f.resolve fs).2 ++ missing fs (f.resolve fs).1 remembered } := by
  simp only [load, discover, h]
  rfl

@[simp] theorem entry_readSource (fs : FileSystem) (folder : String) (r : RuleEntry) :
    (readSource fs folder r).entry = r := by
  unfold readSource
  split
  · split <;> rfl
  · rfl

theorem map_entry_readSource (fs : FileSystem) (folder : String) (entries : List RuleEntry) :
    (entries.map (readSource fs folder)).map RuleSource.entry = entries := by
  have hentry : RuleSource.entry ∘ readSource fs folder = id := funext (entry_readSource fs folder)
  rw [List.map_map, hentry, List.map_id]

/-! Of a listing in another order the same comes. -/

theorem resolve_eq (h : fs.SameUpToOrder fs') : f.resolve fs' = f.resolve fs := by
  unfold resolve
  rw [h.isFolder_eq]

theorem isRuleFile_eq (h : fs.SameUpToOrder fs') : isRuleFile fs' = isRuleFile fs := by
  funext folder name
  rw [isRuleFile, isRuleFile, h.isFile_eq]

theorem isThere_eq (h : fs.SameUpToOrder fs') : isThere fs' = isThere fs := by
  funext folder r
  rw [isThere, isThere, h.isFile_eq]

theorem readSource_eq (h : fs.SameUpToOrder fs') : readSource fs' = readSource fs := by
  funext folder r
  rw [readSource, readSource, h.readText_eq]

theorem found_eq (h : fs.SameUpToOrder fs') {names' : List String} (hnames : names.Perm names') :
    found fs' folder names' remembered = found fs folder names remembered := by
  have hfiles : ruleFiles fs folder names = ruleFiles fs folder names' :=
    sortNames_eq ((hnames.filter _).trans (List.mergeSort_perm _ _).symm) (pairwise_sortNames _)
  rw [found, found, hfiles, ruleFiles, ruleFiles, isRuleFile_eq h, isThere_eq h]

/-- The order in which folders are listed does not matter for the result. -/
theorem load_eq (h : fs.SameUpToOrder fs') (remembered : List RuleEntry) :
    f.load fs' remembered = f.load fs remembered := by
  have hfolder := f.resolve_eq h
  rcases h.readFolder_cases (f.resolve fs).1 with ⟨e, hread, hread'⟩ | ⟨_, _, hperm, hread, hread'⟩
  · rw [← hfolder] at hread'
    rw [f.load_of_error hread, f.load_of_error hread', hfolder]
  · rw [← hfolder] at hread'
    rw [f.load_of_ok hread, f.load_of_ok hread', hfolder, found_eq h hperm, readSource_eq h, missing,
      missing, isThere_eq h]

/-! What was found once is found again. -/

/-- The file of every rule that was found is there. -/
theorem isThere_of_mem_found {r : RuleEntry} (h : r ∈ found fs folder names remembered) :
    isThere fs folder r = true := by
  obtain ⟨news, hsub, heq, -, -⟩ := exists_news (remembered.filter (isThere fs folder))
    (ruleFiles fs folder names)
  rw [found, heq] at h
  rcases List.mem_append.mp h with hkept | hnew
  · exact (List.mem_filter.mp hkept).2
  · obtain ⟨name, hname, rfl⟩ := List.mem_map.mp hnew
    have hfile := (mem_ruleFiles.mp (hsub.subset hname)).2
    exact (Bool.and_eq_true_iff.mp hfile).1

theorem found_found :
    found fs folder names (found fs folder names remembered) =
      found fs folder names remembered := by
  have hkept : (found fs folder names remembered).filter (isThere fs folder) =
      found fs folder names remembered :=
    List.filter_eq_self.mpr fun r hr => isThere_of_mem_found hr
  rw [found, hkept]
  exact foldl_addNew_of_isNamed fun name hname => isNamed_foldl hname

theorem missing_found : missing fs folder (found fs folder names remembered) = [] := by
  have hnone : (found fs folder names remembered).filter (!isThere fs folder ·) = [] :=
    List.filter_eq_nil_iff.mpr fun r hr => by simp [isThere_of_mem_found hr]
  rw [missing, hnone, List.map_nil]

/-! Errors of rules stand behind those of the folder. -/

theorem isMissingFile_of_mem_resolve {e : RuleError} (h : e ∈ (f.resolve fs).2) :
    e.isMissingFile = false := by
  unfold resolve at h
  cases hcustom : f.customPath? with
  | none => simp [hcustom] at h
  | some path =>
      cases hfolder : fs.isFolder path with
      | true => simp [hcustom, hfolder] at h
      | false =>
          obtain rfl : e = .missingFolder path := by simpa [hcustom, hfolder] using h
          rfl

theorem isMissingFile_of_mem_missing {e : RuleError} (h : e ∈ missing fs folder remembered) :
    e.isMissingFile = true := by
  obtain ⟨r, -, rfl⟩ := List.mem_map.mp h
  rfl

theorem filter_errors : ((f.resolve fs).2 ++ missing fs folder remembered).filter
    RuleError.isMissingFile = missing fs folder remembered := by
  have hfolder : (f.resolve fs).2.filter RuleError.isMissingFile = [] :=
    List.filter_eq_nil_iff.mpr fun e he => by simp [f.isMissingFile_of_mem_resolve he]
  have hrules : (missing fs folder remembered).filter RuleError.isMissingFile =
      missing fs folder remembered :=
    List.filter_eq_self.mpr fun e he => isMissingFile_of_mem_missing he
  rw [List.filter_append, hfolder, hrules, List.nil_append]

theorem filter_errors_not : ((f.resolve fs).2 ++ missing fs folder remembered).filter
    (!RuleError.isMissingFile ·) = (f.resolve fs).2 := by
  have hfolder : (f.resolve fs).2.filter (!RuleError.isMissingFile ·) = (f.resolve fs).2 :=
    List.filter_eq_self.mpr fun e he => by simp [f.isMissingFile_of_mem_resolve he]
  have hrules : (missing fs folder remembered).filter (!RuleError.isMissingFile ·) = [] :=
    List.filter_eq_nil_iff.mpr fun e he => by simp [isMissingFile_of_mem_missing he]
  rw [List.filter_append, hfolder, hrules, List.append_nil]

/-! What is found is what was remembered and is there, and what is new. -/

/-- Behind the rules that are kept stand new ones, switched off, for rule files that none of the others
names, in strictly increasing order. -/
theorem exists_added (fs : FileSystem) (folder : String) (names : List String)
    (remembered : List RuleEntry) :
    ∃ added, found fs folder names remembered = remembered.filter (isThere fs folder) ++ added ∧
      (added.map RuleEntry.location).Pairwise (· < ·) ∧
      ∀ r ∈ added, r.enabled = false ∧ r.location ∈ names ∧
        isRuleFile fs folder r.location = true ∧
        ∀ r' ∈ remembered, isThere fs folder r' = true →
          Text.sameLetters r'.location r.location = false := by
  obtain ⟨news, hsub, heq, hnew, happart⟩ := exists_news (remembered.filter (isThere fs folder))
    (ruleFiles fs folder names)
  refine ⟨news.map newRule, heq, ?_, ?_⟩
  · have hlt : news.Pairwise (· < ·) := pairwise_lt_of_news hsub (pairwise_sortNames _) happart
    have hlocation : RuleEntry.location ∘ newRule = id := rfl
    rwa [List.map_map, hlocation, List.map_id]
  · intro r hr
    obtain ⟨name, hname, rfl⟩ := List.mem_map.mp hr
    obtain ⟨hlisted, hfile⟩ := mem_ruleFiles.mp (hsub.subset hname)
    refine ⟨rfl, hlisted, hfile, fun r' hr' hthere => ?_⟩
    have hkept := List.mem_filter.mpr ⟨hr', hthere⟩
    exact Bool.eq_false_iff.mpr (List.any_eq_false.mp (hnew name hname) r' hkept)

/-- Every rule file is named. -/
theorem exists_sameLetters_found (h : name ∈ names) (hfile : isRuleFile fs folder name = true) :
    ∃ r ∈ found fs folder names remembered, Text.sameLetters r.location name = true := by
  have hnamed : isNamed (found fs folder names remembered) name = true :=
    isNamed_foldl (mem_ruleFiles.mpr ⟨h, hfile⟩)
  exact List.any_eq_true.mp hnamed

/-- **Looking for rules.** The result is the same in whatever order folders are listed, and can be had just
when the folder can be read. The rules that were remembered and whose file is there are kept as they
are; behind them stand new ones, switched off, for rule files of the folder that none of the others
names, in strictly increasing order, so that in the end every rule file is named. Each rule has a source,
and each rule whose file is not there an error. To look again, with what was found, finds the same, with
nothing missing. -/
theorem load_ordered (h : fs.SameUpToOrder fs') (remembered : List RuleEntry) :
    f.load fs' remembered = f.load fs remembered ∧
      ((∃ loaded, f.load fs remembered = .ok loaded) ↔
        ∃ names, fs.readFolder (f.resolve fs).1 = .ok names) ∧
      ∀ loaded, f.load fs remembered = .ok loaded →
        ∃ names added, fs.readFolder loaded.folder = .ok names ∧
          loaded.entries = remembered.filter (isThere fs loaded.folder) ++ added ∧
          (added.map RuleEntry.location).Pairwise (· < ·) ∧
          (∀ r ∈ added, r.enabled = false ∧ r.location ∈ names ∧
            isRuleFile fs loaded.folder r.location = true ∧
            ∀ r' ∈ remembered, isThere fs loaded.folder r' = true →
              Text.sameLetters r'.location r.location = false) ∧
          (∀ name ∈ names, isRuleFile fs loaded.folder name = true →
            ∃ r ∈ loaded.entries, Text.sameLetters r.location name = true) ∧
          loaded.sources.map RuleSource.entry = loaded.entries ∧
          loaded.errors.filter RuleError.isMissingFile =
            (remembered.filter (!isThere fs loaded.folder ·)).map
              (fun r => .missingFile r.name (Path.join loaded.folder r.location)) ∧
          f.load fs' loaded.entries =
            .ok { loaded with errors := loaded.errors.filter (!RuleError.isMissingFile ·) } := by
  refine ⟨f.load_eq h remembered, ?_, ?_⟩
  · cases hread : fs.readFolder (f.resolve fs).1 with
    | error e => simp [f.load_of_error hread]
    | ok names => simp [f.load_of_ok hread]
  intro loaded hloaded
  cases hread : fs.readFolder (f.resolve fs).1 with
  | error e =>
      rw [f.load_of_error hread] at hloaded
      contradiction
  | ok names =>
      rw [f.load_of_ok hread] at hloaded
      obtain rfl := Except.ok.inj hloaded
      obtain ⟨added, hentries, hlt, hadded⟩ := exists_added fs (f.resolve fs).1 names remembered
      refine ⟨names, added, hread, hentries, hlt, hadded, fun _ => exists_sameLetters_found,
        map_entry_readSource fs _ _, f.filter_errors, ?_⟩
      rw [f.load_eq h, f.load_of_ok hread, found_found, missing_found, f.filter_errors_not,
        List.append_nil]

end Load

/-! ## a folder with old and new rule files -/

/-- A file system with a folder of rule files and some notes. -/
def shelf (names : List String) : FileSystem :=
  .ofList [("rules", .ok (.folder names)), ("rules/b.ifl", .ok (.file .empty)),
    ("rules/a.ifl", .ok (.file .empty)), ("rules/A.IFL", .ok (.file .empty)),
    ("rules/notes.txt", .ok (.file .empty))]

theorem sameUpToOrder_shelf {names names' : List String} (h : names.Perm names') :
    (shelf names).SameUpToOrder (shelf names') := by
  intro path
  by_cases hpath : path = "rules"
  · subst hpath
    exact .folder h
  · have hother : (shelf names').look path = (shelf names).look path := by
      simp [shelf, FileSystem.ofList, List.lookup_cons, beq_false_of_ne hpath]
    rw [hother]
    exact .refl _

/-- A folder that the player chose and that is not there, a rule whose file is gone, and two new rule
files whose names differ in letter case only. -/
theorem load_of_shelf :
    let names := ["b.ifl", "notes.txt", "a.ifl", "A.IFL"]
    let f : RuleFolder := ⟨"rules", some "gone"⟩
    let mine : RuleEntry := { name := "mine", location := "b.ifl", enabled := true }
    let remembered : List RuleEntry := [{ name := "old", location := "old.ifl" }, mine]
    (shelf names).SameUpToOrder (shelf names.reverse) ∧
      ∃ loaded, f.load (shelf names) remembered = .ok loaded ∧
        f.load (shelf names.reverse) remembered = .ok loaded ∧
        loaded.entries = [mine, { name := "A.IFL", location := "A.IFL" }] ∧
        loaded.errors = [.missingFolder "gone", .missingFile "old" "rules/old.ifl"] ∧
        f.load (shelf names.reverse) loaded.entries =
          .ok { loaded with errors := [.missingFolder "gone"] } := by
  intro names f mine remembered
  have hsame := sameUpToOrder_shelf (List.reverse_perm names).symm
  have hfolder : f.resolve (shelf names) = ("rules", [.missingFolder "gone"]) := by decide +kernel
  have hread : (shelf names).readFolder (f.resolve (shelf names)).1 = .ok names := by
    rw [hfolder]
    rfl
  have hfiles : ruleFiles (shelf names) "rules" names = ["A.IFL", "a.ifl", "b.ifl"] := by
    have hlisted : names.filter (isRuleFile (shelf names) "rules") = ["b.ifl", "a.ifl", "A.IFL"] := by
      decide +kernel
    rw [ruleFiles, hlisted]
    exact sortNames_eq (by decide) (by decide)
  have hfound : found (shelf names) "rules" names remembered =
      [mine, { name := "A.IFL", location := "A.IFL" }] := by
    rw [found, hfiles]
    decide +kernel
  have hmissing : missing (shelf names) "rules" remembered =
      [.missingFile "old" "rules/old.ifl"] := by decide +kernel
  have hload := f.load_of_ok hread remembered
  rw [hfolder] at hload
  obtain ⟨heq, -, hloaded⟩ := f.load_ordered hsame remembered
  obtain ⟨-, -, -, -, -, -, -, -, -, hagain⟩ := hloaded _ hload
  refine ⟨hsame, _, hload, heq.trans hload, hfound, congrArg (_ :: ·) hmissing, hagain.trans ?_⟩
  rw [hmissing]
  rfl

end RuleFolder

end ShopLens
