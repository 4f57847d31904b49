import ShopLens.Proofs.Rule.Comments
import ShopLens.Proofs.Rule.Lines
import ShopLens.Proofs.Rule.Rewriting
import ShopLens.Rule.Match

/-!
# ShopLens.Proofs.Rule.Conjuncts

Rules that are conjunctions of bounds on the numbers of open affixes and of expressions in parentheses.
Made ready, such a rule has `true` in the place of its bounds (`prepare_conjunction`), and what it asks
for are these bounds (`admits_conjunction`): a number of open affixes is asked for just when every bound
of its kind holds, also where the numbers are too great to be told apart.
-/

namespace ShopLens.Rule

open ShopLens.Text ShopLens.Filter

/-! ## conjuncts -/

/-- Whether a text is an expression of one line that holds no slash and no name of a count. -/
structure IsPlain (e : String) : Prop where
  accepted : ∃ p, compile e = .ok p
  noReturn : '\r' ∉ e.toList
  noFeed : '\n' ∉ e.toList
  noSlash : '/' ∉ e.toList
  noName : ∀ k, ¬countName k <:+: e.toList

/-- A conjunct of a rule. -/
inductive Conjunct where
  /-- A least number of open affixes of a kind, which itself is not enough if the bound is strict. -/
  | bound (k : AffixKind) (strict : Bool) (digits : List Char) (hne : digits ≠ [])
      (hd : ∀ d ∈ digits, d.isDigit = true)
  /-- An expression in parentheses. -/
  | group (e : String) (h : IsPlain e)

namespace Conjunct

/-- The operator of a bound. -/
def op (strict : Bool) : Comparison := if strict then .gt else .ge

theorem op_ne (strict : Bool) : op strict ≠ .ne ∧ op strict ≠ .eq := by
  cases strict <;> decide

/-- The text of a conjunct. -/
def chars : Conjunct → List Char
  | bound k strict digits _ _ =>
    countName k ++ (['(', ')'] ++ ([' '] ++ ((Symbol.cmp (op strict)).chars ++ ([' '] ++ digits))))
  | group e _ => ['(', ' '] ++ (e.toList ++ [' ', ')'])

/-- What is left of the text of a conjunct where bounds are taken out. -/
def left : Conjunct → List Char
  | bound .. => ['t', 'r', 'u', 'e']
  | group e h => (group e h).chars

/-- The bounds of a kind in a conjunct. -/
def bounds (k : AffixKind) : Conjunct → List Bound
  | bound k' strict digits _ _ => if k' = k then [⟨op strict, numberOf digits⟩] else []
  | group _ _ => []

end Conjunct

/-- Texts with `&&` between them. -/
def conjoin (texts : List (List Char)) : List Char := [' ', '&', '&', ' '].intercalate texts

/-- The text of a rule with some conjuncts. -/
def conjunction (cs : List Conjunct) : String := String.ofList (conjoin (cs.map Conjunct.chars))

theorem conjoin_cons_cons (w v : List Char) (ws : List (List Char)) :
    conjoin (w :: v :: ws) = w ++ ([' ', '&', '&', ' '] ++ conjoin (v :: ws)) := by
  rw [conjoin, List.intercalate_cons_cons, List.append_assoc]
  rfl

@[simp] theorem conjoin_singleton (w : List Char) : conjoin [w] = w := List.intercalate_singleton

/-! ## taking bounds out -/

/-- A bound is a comparison. -/
theorem writes_bound (k : AffixKind) (strict : Bool) {digits : List Char} (hne : digits ≠ [])
    (hd : ∀ d ∈ digits, d.isDigit = true) :
    Writes k (Conjunct.bound k strict digits hne hd).chars
      ⟨Conjunct.op strict, numberOf digits⟩ := by
  have hnothing : ∀ c ∈ ([] : List Char), isBlank c = true := by simp
  have hspace : ∀ c ∈ [' '], isBlank c = true := List.all_iff_forall_prop.mp (by decide)
  exact .mk _ (Conjunct.op_ne strict).1 hnothing hspace hspace hne
    fun d hd' => isDecimal_of_isDigit (hd d hd')

/-- A name without blanks that starts a text stands before its first blank. -/
theorem isPrefix_of_append_blank {name a x y : List Char} (hname : ' ' ∉ name)
    (h : a ++ ' ' :: y = name ++ x) : name <+: a := by
  rcases List.append_eq_append_iff.mp h with ⟨b, hb, hy⟩ | ⟨b, hb, -⟩
  · cases b with
    | nil => exact ⟨[], by simpa using hb⟩
    | cons c b =>
        obtain rfl := (List.cons.inj hy).1
        exact absurd (by simp [hb]) hname
  · exact ⟨b, hb.symm⟩

/-- No comparison starts within an expression in parentheses. -/
theorem found?_eq_none_of_group {e : String} (h : IsPlain e) (k : AffixKind) (r : List Char)
    {u v : List Char} (huv : (Conjunct.group e h).chars = u ++ v) (hv : v ≠ []) :
    found? k (v ++ r) = none := by
  cases hf : found? k (v ++ r) with
  | none => rfl
  | some f =>
      obtain ⟨m, hcs, hm, -⟩ := writes_of_found? hf
      obtain ⟨d, x, rfl, -⟩ := hm.exists_tail
      obtain ⟨c, v, rfl⟩ := List.exists_cons_of_ne_nil hv
      obtain ⟨w, hw⟩ := capital_found? k _ f hf
      obtain rfl : c = 'O' := (List.cons.inj hw).1
      obtain ⟨u, he⟩ : ∃ u, e.toList ++ [' ', ')'] = u ++ 'O' :: v := by
        rcases u with _ | ⟨a, _ | ⟨b, u⟩⟩
        · exact absurd (List.cons.inj huv).1 (by decide)
        · exact absurd (List.cons.inj (List.cons.inj huv).2).1 (by decide)
        · exact ⟨u, (List.cons.inj (List.cons.inj huv).2).2⟩
      rcases List.append_eq_append_iff.mp he with ⟨b, -, hb⟩ | ⟨a, ha, hv'⟩
      · have hmem : 'O' ∈ [' ', ')'] := by rw [hb]; simp
        exact absurd hmem (by decide)
      · -- the name would stand in the expression
        have hname : ' ' ∉ countName k := by cases k <;> decide
        have htext : a ++ ' ' :: (')' :: r) = countName k ++ (d :: x ++ f.rest) := by
          rw [← List.append_assoc, ← hcs, hv']
          simp
        refine absurd ?_ (h.noName k)
        exact (isPrefix_of_append_blank hname htext).isInfix.trans ⟨u, [], by simp [ha]⟩

/-- Whether a text is empty or starts with a blank. -/
def startsBlank (r : List Char) : Bool := r.head?.all isBlank

namespace Conjunct

/-- Taking the bounds out of a conjunct and of what stands behind it. -/
theorem extract_append (k : AffixKind) (c : Conjunct) {r : List Char} (hr : startsBlank r = true) :
    (extract k (c.chars ++ r)).1 = c.bounds k ++ (extract k r).1 := by
  simp only [extract_eq_substitute]
  cases c with
  | bound k' strict digits hne hd =>
      have hm := writes_bound k' strict hne hd
      obtain ⟨f, hf, hbound, hrest⟩ := found?_of_writes hm (head?_any_isDecimal_of_blank hr)
      by_cases hk : k' = k
      · subst hk
        rw [substitute_of_some hf, hbound, hrest, bounds, if_pos rfl]
        rfl
      · rw [substitute_of_writes hm rfl (found?_eq_none_of_found? k hk hf), bounds, if_neg hk]
        rfl
  | group e h =>
      rw [substitute_append_of_none fun u v => found?_eq_none_of_group h k r]
      rfl

theorem substitute_append (c : Conjunct) {r : List Char} (hr : startsBlank r = true) :
    (substitute foundEither? (c.chars ++ r)).2 = c.left ++ (substitute foundEither? r).2 := by
  cases c with
  | bound k strict digits hne hd =>
      obtain ⟨f, hf, -, hrest⟩ :=
        found?_of_writes (writes_bound k strict hne hd) (head?_any_isDecimal_of_blank hr)
      rw [substitute_of_some (foundEither?_of_found? hf), hrest]
      rfl
  | group e h =>
      have hnone (u v : List Char) (huv : (group e h).chars = u ++ v) (hv : v ≠ []) :
          foundEither? (v ++ r) = none := by
        rw [foundEither?, found?_eq_none_of_group h _ r huv hv, found?_eq_none_of_group h _ r huv hv]
        rfl
      rw [substitute_append_of_none hnone]
      rfl

end Conjunct

/-- What goes through conjuncts, and through the seams between them, goes through a conjunction. -/
theorem map_conjoin {α : Type} (out : List Char → List α) {part : Conjunct → List α} {seam : List α}
    (hnil : out [] = [])
    (hpart : ∀ (c : Conjunct) {r}, startsBlank r = true → out (c.chars ++ r) = part c ++ out r)
    (hseam : ∀ r, out ([' ', '&', '&', ' '] ++ r) = seam ++ out r) {cs : List Conjunct}
    (hne : cs ≠ []) : out (conjoin (cs.map Conjunct.chars)) = seam.intercalate (cs.map part) := by
  induction cs with
  | nil => contradiction
  | cons c cs ih =>
      cases cs with
      | nil =>
          have h := hpart c (r := []) rfl
          rw [List.append_nil, hnil, List.append_nil] at h
          rw [List.map_singleton, conjoin_singleton, h, List.map_singleton, List.intercalate_singleton]
      | cons c' cs =>
          rw [List.map_cons, List.map_cons, conjoin_cons_cons, hpart c rfl, hseam, ← List.map_cons,
            ih (by simp)]
          simp only [List.map_cons, List.intercalate_cons_cons, List.append_assoc]

theorem nil_intercalate {α : Type} (xs : List (List α)) : ([] : List α).intercalate xs = xs.flatten := by
  induction xs with
  | nil => rfl
  | cons x xs ih =>
      cases xs with
      | nil => simp
      | cons y ys => simp only [List.intercalate_cons_cons, ih, List.append_nil, List.flatten_cons]

theorem extract_conjoin (k : AffixKind) {cs : List Conjunct} (hne : cs ≠ []) :
    (extract k (conjoin (cs.map Conjunct.chars))).1 = cs.flatMap (Conjunct.bounds k) := by
  have hseam (r : List Char) : (extract k ([' ', '&', '&', ' '] ++ r)).1 = [] ++ (extract k r).1 := by
    rw [extract_eq_substitute, extract_eq_substitute,
      Rule.substitute_append (capital_found? k) (by decide)]
    rfl
  rw [map_conjoin (fun cs => (extract k cs).1) (by simp [extract])
    (fun c {r} => c.extract_append k) hseam hne, nil_intercalate, List.flatMap_def]

theorem substitute_conjoin {cs : List Conjunct} (hne : cs ≠ []) :
    (substitute foundEither? (conjoin (cs.map Conjunct.chars))).2 =
      conjoin (cs.map Conjunct.left) :=
  map_conjoin (fun cs => (substitute foundEither? cs).2) (by simp [substitute])
    (fun c {r} => c.substitute_append)
    (fun r => by rw [Rule.substitute_append capital_foundEither? (by decide)]) hne

/-! ## making the rule ready -/

/-- Lines with `&&` between them are a line. -/
theorem isLine_conjoin {ws : List (List Char)} (h : ∀ w ∈ ws, IsLine w ∧ w ≠ []) (hne : ws ≠ []) :
    IsLine (conjoin ws) ∧ conjoin ws ≠ [] := by
  induction ws with
  | nil => contradiction
  | cons w ws ih =>
      obtain ⟨hw, hwne⟩ := h w (by simp)
      cases ws with
      | nil => exact ⟨by simpa using hw, by simpa using hwne⟩
      | cons v ws =>
          obtain ⟨hrest, hrestne⟩ := ih (fun u hu => h u (List.mem_cons_of_mem w hu)) (by simp)
          rw [conjoin_cons_cons]
          refine ⟨⟨hw.trimmed.append hrest.trimmed hwne hrestne _, ?_, ?_⟩, by simp⟩
          · simp [hw.noReturn, hrest.noReturn]
          · simp [hw.noFeed, hrest.noFeed]

/-- Characters that no conjunct holds. -/
theorem Conjunct.not_mem_chars (c : Conjunct) {d : Char} (hd : d ∈ ['\r', '\n', '/']) :
    d ∉ c.chars := by
  cases c with
  | bound k strict digits hne hdigits =>
      have hdigit : d ∉ digits := by
        intro hmem
        have hno : ∀ d ∈ ['\r', '\n', '/'], d.isDigit = false :=
          List.all_iff_forall_prop.mp (by decide)
        simpa [hno d hd] using hdigits d hmem
      have hothers : ∀ d ∈ ['\r', '\n', '/'], d ∉ countName k ++
          (['(', ')'] ++ ([' '] ++ ((Symbol.cmp (op strict)).chars ++ [' ']))) := by
        cases k <;> cases strict <;> exact List.all_iff_forall_prop.mp (by decide)
      have h := hothers d hd
      simp only [List.mem_append, not_or] at h
      simp only [chars, List.mem_append, not_or]
      exact ⟨h.1, h.2.1, h.2.2.1, h.2.2.2.1, h.2.2.2.2, hdigit⟩
  | group e h =>
      have he : d ∉ e.toList := by
        simp only [List.mem_cons, List.not_mem_nil, or_false] at hd
        rcases hd with rfl | rfl | rfl
        · exact h.noReturn
        · exact h.noFeed
        · exact h.noSlash
      have hothers : ∀ d ∈ ['\r', '\n', '/'], d ∉ ['(', ' '] ∧ d ∉ [' ', ')'] :=
        List.all_iff_forall_prop.mp (by decide)
      obtain ⟨hopen, hclose⟩ := hothers d hd
      simp only [chars, List.mem_append, not_or]
      exact ⟨hopen, he, hclose⟩

theorem trimmed_of_ends {cs : List Char} (h : ∀ c ∈ cs, isBlank c = false) : Trimmed cs :=
  ⟨fun c hc => h c (List.mem_of_head? hc), fun c hc => h c (List.mem_of_getLast? hc)⟩

theorem Conjunct.isLine_chars (c : Conjunct) : IsLine c.chars ∧ c.chars ≠ [] := by
  refine ⟨⟨?_, c.not_mem_chars (by decide), c.not_mem_chars (by decide)⟩, ?_⟩
  · cases c with
    | bound k strict digits hne hd =>
        have hname : Trimmed (countName k) := by
          cases k <;> exact trimmed_of_ends (List.all_iff_forall_prop.mp (by decide +kernel))
        have hdigits : Trimmed digits :=
          trimmed_of_ends fun d hd' => isBlank_of_isDecimal (isDecimal_of_isDigit (hd d hd'))
        have htext : (bound k strict digits hne hd).chars = countName k ++
            ((['(', ')'] ++ ([' '] ++ ((Symbol.cmp (op strict)).chars ++ [' ']))) ++ digits) := by
          simp [chars]
        rw [htext]
        exact hname.append hdigits (by cases k <;> decide) hne _
    | group e h =>
        have htext : (group e h).chars = ['('] ++ ((' ' :: (e.toList ++ [' '])) ++ [')']) := by
          simp [chars]
        rw [htext]
        have hopen : Trimmed ['('] := trimmed_of_ends (List.all_iff_forall_prop.mp (by decide))
        have hclose : Trimmed [')'] := trimmed_of_ends (List.all_iff_forall_prop.mp (by decide))
        exact hopen.append hclose (by simp) (by simp) _
  · cases c with
    | bound k strict digits hne hd => simp [chars]
    | group e h => simp [chars]

/-- **Made ready**, a conjunction has `true` in the place of its bounds, and asks for them. -/
theorem prepare_conjunction {cs : List Conjunct} (hne : cs ≠ []) :
    prepare (conjunction cs) =
      ⟨String.ofList (conjoin (cs.map Conjunct.left)),
        ⟨leastOf (cs.flatMap (Conjunct.bounds .prefixMod)),
          leastOf (cs.flatMap (Conjunct.bounds .suffixMod))⟩⟩ := by
  have hline : IsLine (conjoin (cs.map Conjunct.chars)) := by
    refine (isLine_conjoin (fun w hw => ?_) (by simpa using hne)).1
    obtain ⟨c, -, rfl⟩ := List.mem_map.mp hw
    exact c.isLine_chars
  have hslash : '/' ∉ conjoin (cs.map Conjunct.chars) := by
    refine not_mem_intercalate (by decide) fun w hw => ?_
    obtain ⟨c, -, rfl⟩ := List.mem_map.mp hw
    exact c.not_mem_chars (by decide)
  rw [prepare_eq, conjunction, String.toList_ofList, stripComments_of_not_mem hslash, hline.joinLines]
  simp only [substitute_conjoin hne, extract_conjoin _ hne]

/-! ## what the rule asks for -/

/-- The least number of open affixes that a bound admits. -/
def Conjunct.least (strict : Bool) (digits : List Char) : Nat :=
  Decimal.ofDigits digits + if strict then 1 else 0

/-- Whether the bounds in a conjunct hold. -/
def Conjunct.BoundHolds (limits : AffixLimits) (l : Listing) : Conjunct → Prop
  | bound k strict digits _ _ => least strict digits ≤ limits.openCount l k
  | group _ _ => True

/-- The number of open affixes is that of a byte at most. -/
theorem openCount_lt (limits : AffixLimits) (l : Listing) (k : AffixKind) :
    limits.openCount l k < 256 := by
  have hbase : limits.base l.item < 256 := by
    unfold AffixLimits.base
    split
    · exact limits.flask.toNat_lt
    · split
      · exact limits.jewel.toNat_lt
      · exact limits.other.toNat_lt
  have hallowed (m : Mods) : limits.allowed l.item m < 256 := by
    unfold AffixLimits.allowed
    split
    · next r hr =>
        have hcap : r.cap (limits.base l.item) ≤ limits.base l.item := by
          cases r with
          | normal | unique => exact Nat.zero_le _
          | magic => exact Nat.min_le_left _ _
          | rare => exact Nat.le_refl _
        omega
    · exact hbase
  unfold AffixLimits.openCount
  split
  · decide
  · split
    · next m hm =>
        have := hallowed m
        omega
    · decide

/-- Several bounds ask for a number that is there just when each of them does. -/
theorem all_leastOf_iff {bounds : List Bound} (h : ∀ b ∈ bounds, b.op ≠ .eq) (n : Nat) :
    (leastOf bounds).all (· ≤ n) = true ↔ ∀ b ∈ bounds, b.least?.all (· ≤ n) = true := by
  have hexact : bounds.filterMap Bound.exact? = [] :=
    List.filterMap_eq_nil_iff.mpr fun b hb => if_neg (h b hb)
  have hleast : leastOf bounds = (bounds.filterMap Bound.least?).max? := by
    rw [leastOf, hexact]
    rfl
  have hmem : (∀ b ∈ bounds, b.least?.all (· ≤ n) = true) ↔
      ∀ m ∈ bounds.filterMap Bound.least?, m ≤ n := by
    simp only [List.mem_filterMap, Option.all_eq_true]
    constructor
    · rintro hall m ⟨b, hb, hm⟩
      simpa using hall b hb m hm
    · intro hall b hb m hm
      simpa using hall m ⟨b, hb, hm⟩
  rw [hleast, hmem]
  cases hmax : (bounds.filterMap Bound.least?).max? with
  | none => simp [List.max?_eq_none_iff.mp hmax]
  | some m => simpa using List.max?_le_iff hmax

theorem all_least?_iff (strict : Bool) {digits : List Char} (hd : ∀ d ∈ digits, d.isDigit = true)
    {n : Nat} (hn : n < 256) :
    (Bound.least? ⟨Conjunct.op strict, numberOf digits⟩).all (· ≤ n) = true ↔
      Conjunct.least strict digits ≤ n := by
  have hnumber : numberOf digits = min (Decimal.ofDigits digits) maxAffixes :=
    if_pos (List.all_eq_true.mpr hd)
  have hmax : maxAffixes = 4294967295 := rfl
  cases strict with
  | false =>
      simp only [Conjunct.op, Conjunct.least, Bound.least?, hnumber, hmax]
      simp
      omega
  | true =>
      simp only [Conjunct.op, Conjunct.least, Bound.least?, hnumber, hmax]
      simp
      omega

/-- On a real tab an item is admitted if it has the numbers of open affixes asked for. -/
theorem admits_iff (t : Thresholds) (limits : AffixLimits) {l : Listing} (htab : 0 ≤ l.tab)
    (hdisplayed : l.displayed = true) :
    t.admits limits l = true ↔ t.prefixes.all (· ≤ limits.openCount l .prefixMod) = true ∧
      t.suffixes.all (· ≤ limits.openCount l .suffixMod) = true := by
  rcases t with ⟨_ | p, _ | s⟩ <;>
    simp [Thresholds.admits, Thresholds.any, htab, hdisplayed]

/-- The bounds in a conjunct hold if each of them, of either kind, admits the number that is there. -/
theorem Conjunct.boundHolds_iff (c : Conjunct) (limits : AffixLimits) (l : Listing) :
    c.BoundHolds limits l ↔
      ∀ k, ∀ b ∈ c.bounds k, b.least?.all (· ≤ limits.openCount l k) = true := by
  cases c with
  | bound k strict digits hne hd =>
      rw [BoundHolds, ← all_least?_iff strict hd (openCount_lt limits l k)]
      constructor
      · intro h k' b hb
        by_cases hk : k = k'
        · subst hk
          rw [bounds, if_pos rfl, List.mem_singleton] at hb
          rwa [hb]
        · rw [bounds, if_neg hk] at hb
          contradiction
      · intro h
        exact h k _ (by rw [bounds, if_pos rfl]; exact List.mem_singleton_self _)
  | group e h => simp [BoundHolds, bounds]

theorem Conjunct.ne_eq_of_mem_bounds {c : Conjunct} {k : AffixKind} {b : Bound} (hb : b ∈ c.bounds k) :
    b.op ≠ .eq := by
  cases c with
  | bound k' strict digits hne hd =>
      by_cases hk : k' = k
      · rw [bounds, if_pos hk, List.mem_singleton] at hb
        rw [hb]
        exact (op_ne strict).2
      · rw [bounds, if_neg hk] at hb
        contradiction
  | group e h => contradiction

/-- **The gate**: on a real tab, a conjunction admits an item just when its bounds hold. -/
theorem admits_conjunction {cs : List Conjunct} (hne : cs ≠ []) (limits : AffixLimits) {l : Listing}
    (htab : 0 ≤ l.tab) (hdisplayed : l.displayed = true) :
    (prepare (conjunction cs)).thresholds.admits limits l = true ↔
      ∀ c ∈ cs, c.BoundHolds limits l := by
  have hkind (k : AffixKind) :
      (leastOf (cs.flatMap (Conjunct.bounds k))).all (· ≤ limits.openCount l k) = true ↔
        ∀ c ∈ cs, ∀ b ∈ c.bounds k, b.least?.all (· ≤ limits.openCount l k) = true := by
    rw [all_leastOf_iff]
    · simp only [List.mem_flatMap]
      exact ⟨fun h c hc b hb => h b ⟨c, hc, hb⟩, fun h b ⟨c, hc, hb⟩ => h c hc b hb⟩
    · intro b hb
      obtain ⟨c, -, hc⟩ := List.mem_flatMap.mp hb
      exact Conjunct.ne_eq_of_mem_bounds hc
  rw [prepare_conjunction hne, admits_iff _ limits htab hdisplayed, hkind, hkind]
  simp only [Conjunct.boundHolds_iff]
  constructor
  · rintro ⟨hpre, hsuf⟩ c hc k
    cases k with
    | prefixMod => exact hpre c hc
    | suffixMod => exact hsuf c hc
  · exact fun h => ⟨fun c hc => h c hc _, fun c hc => h c hc _⟩

end ShopLens.Rule
