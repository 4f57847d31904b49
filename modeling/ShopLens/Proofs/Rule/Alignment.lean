import ShopLens.Proofs.Rule.Comments
import ShopLens.Proofs.Rule.Lines
import ShopLens.Proofs.Rule.Rewriting

/-!
# ShopLens.Proofs.Rule.Alignment

The texts in which taking comparisons out is the same as replacing their tokens. It suffices that the
comparisons are aligned with the tokens (`lexes_substitute`); here it is shown to be necessary. The
first comparison that is not aligned puts a small t in the place of a capital O within a text literal or
a name, which then is another one (`Lexeme.absurd_of_ne`), or it has `true` go on with what follows.

* `lexes_substitute_iff` — the rewritten text has the rewritten tokens just when the text is aligned;
* `aligned_blanks_iff` — blanks around a text make no difference;
* `prepare_tokens` — the same for rules of a single line, and what they ask for.
-/

namespace ShopLens.Filter

/-! ## tokens with another letter -/

/-- A text literal does not mean the same with another letter, and perhaps other ones behind it. -/
theorem Body.absurd_of_ne {a x y raw r meant : List Char} (h : Body (a ++ 'O' :: x) meant)
    (h' : Body raw meant) (heq : raw ++ r = a ++ 't' :: y) : False := by
  generalize hcs : a ++ 'O' :: x = cs at h
  induction h generalizing a raw with
  | close =>
      have hO : 'O' ∈ ['"'] := by rw [← hcs]; simp
      exact absurd hO (by decide)
  | @escape e cs meant _ ih =>
      generalize hmeant : unescape e :: meant = m at h'
      rcases a with _ | ⟨c, a⟩
      · exact absurd (List.cons.inj hcs).1 (by decide)
      · obtain ⟨rfl, htail⟩ := List.cons.inj hcs
        cases h' with
        | close => contradiction
        | char _ hb _ => exact hb (List.cons.inj heq).1
        | @escape e' raw meant' h' =>
            obtain ⟨hunescape, rfl⟩ := List.cons.inj hmeant
            have heq' : e' :: raw ++ r = a ++ 't' :: y := (List.cons.inj heq).2
            rcases a with _ | ⟨d, a⟩
            · -- the letters stand behind the backslash
              obtain rfl := (List.cons.inj htail).1
              obtain rfl : e' = 't' := (List.cons.inj heq').1
              exact absurd hunescape (by decide)
            · exact ih h' (List.cons.inj heq').2 (List.cons.inj htail).2
  | @char c cs meant hq hb _ ih =>
      generalize hmeant : c :: meant = m at h'
      cases h' with
      | close => contradiction
      | @escape e raw meant' _ =>
          rcases a with _ | ⟨d, a⟩
          · exact absurd (List.cons.inj heq).1 (by decide)
          · obtain rfl := (List.cons.inj hcs).1
            exact hb (List.cons.inj heq).1.symm
      | @char c' raw meant' _ _ h' =>
          obtain ⟨rfl, rfl⟩ := List.cons.inj hmeant
          rcases a with _ | ⟨d, a⟩
          · obtain rfl := (List.cons.inj hcs).1
            exact absurd (List.cons.inj heq).1 (by decide)
          · exact ih h' (List.cons.inj heq).2 (List.cons.inj hcs).2

/-- A token is not written with another letter either, whatever follows. -/
theorem Lexeme.absurd_of_ne {t : Token} {a x y w r : List Char} (h : Lexeme t (a ++ 'O' :: x))
    (h' : Lexeme t w) (heq : w ++ r = a ++ 't' :: y) : False := by
  have hmem : 'O' ∈ a ++ 'O' :: x := by simp
  generalize hcs : a ++ 'O' :: x = cs at h hmem
  cases h with
  | sym s =>
      rcases s with _ | _ | _ | _ | _ | _ | _ | (_ | _ | _ | _ | _ | _) <;>
        exact absurd hmem (by decide)
  | int _ hd _ => exact absurd (hd 'O' hmem) (by decide)
  | float _ _ hwd hpd =>
      rcases List.mem_append.mp hmem with hmem | hmem
      · exact absurd (hwd 'O' hmem) (by decide)
      · rcases List.mem_cons.mp hmem with hmem | hmem
        · exact absurd hmem (by decide)
        · exact absurd (hpd 'O' hmem) (by decide)
  | ident h =>
      have hw := lexeme_ident h'
      rw [String.toList_ofList] at hw
      rw [← hw, ← hcs, List.append_assoc, List.append_cancel_left_eq] at heq
      exact absurd (List.cons.inj heq).1 (by decide)
  | @str raw meant h =>
      rcases a with _ | ⟨c, a⟩
      · exact absurd (List.cons.inj hcs).1 (by decide)
      · obtain ⟨rfl, rfl⟩ := List.cons.inj hcs
        generalize hmeant : String.ofList meant = s at h'
        cases h' with
        | @str raw' meant' h' =>
            rw [String.ofList_inj] at hmeant
            subst hmeant
            exact h.absurd_of_ne h' (List.cons.inj heq).2

end ShopLens.Filter

namespace ShopLens.Rule

open ShopLens.Text ShopLens.Filter

/-! ## the comparisons are aligned -/

section Pass

variable {find : (cs : List Char) → Option (Found cs)} {cs : List Char}

theorem head?_any_of_substitute {p : Char → Bool} (ht : p 't' = true)
    (h : (substitute find cs).2.head?.any p = false) : cs.head?.any p = false := by
  cases cs with
  | nil => rfl
  | cons c r =>
      cases hf : find (c :: r) with
      | none => rwa [substitute_of_none hf] at h
      | some f =>
          rw [substitute_of_some hf] at h
          simp [ht] at h

/-- Either nothing is found from any of some characters on, or the first comparison that is found turns a
capital O among them into a small t. -/
theorem substitute_append_cases (hfind : Capital find) (w r : List Char) :
    (∀ u v, w = u ++ v → v ≠ [] → find (v ++ r) = none) ∨
      ∃ a x y, w = a ++ 'O' :: x ∧ (substitute find (w ++ r)).2 = a ++ 't' :: y := by
  induction w with
  | nil =>
      refine .inl fun u v huv hv => ?_
      exact absurd (List.append_eq_nil_iff.mp huv.symm).2 hv
  | cons c w ih =>
      cases hf : find (c :: (w ++ r)) with
      | some f =>
          obtain ⟨x, hcs⟩ := hfind _ f hf
          obtain rfl := (List.cons.inj hcs).1
          exact .inr ⟨[], w, _, rfl, by rw [List.cons_append, substitute_of_some hf]; rfl⟩
      | none =>
          rcases ih with hnone | ⟨a, x, y, rfl, htext⟩
          · refine .inl fun u v huv hv => ?_
            cases u with
            | nil => rw [List.nil_append] at huv; exact huv ▸ hf
            | cons d u => exact hnone u v (List.cons.inj huv).2 hv
          · refine .inr ⟨c :: a, x, y, rfl, ?_⟩
            rw [List.cons_append, substitute_of_none hf, htext]
            rfl

end Pass

/-- A text is aligned if a comparison at its front is, none starts within its first part, and what is
left is aligned. -/
theorem Aligned.append {pos : Nat} {a r : List Char} {ps qs : List Placed} (hps : ∀ q ∈ qs, q ∈ ps)
    (hfront : ∀ f, foundEither? (a ++ r) = some f → (∃ p ∈ ps, p.pos = pos) ∧
      f.rest.head?.any isNamePart = false ∧ startsFraction f.rest = false)
    (hinside : ∀ u v, a = u ++ v → u ≠ [] → v ≠ [] → foundEither? (v ++ r) = none)
    (hr : Aligned (pos + byteLength a) r qs) : Aligned pos (a ++ r) ps := by
  intro u v k f hcs hf
  have hrest (x : List Char) (hu : u = a ++ x) (hx : r = x ++ v) :
      (∃ p ∈ ps, p.pos = pos + byteLength u) ∧
        f.rest.head?.any isNamePart = false ∧ startsFraction f.rest = false := by
    obtain ⟨⟨p, hp, hpos⟩, hafter⟩ := hr x v k f hx hf
    exact ⟨⟨p, hps p hp, by rw [hpos, hu, byteLength_append, Nat.add_assoc]⟩, hafter⟩
  rcases List.append_eq_append_iff.mp hcs with ⟨x, hu, hx⟩ | ⟨x, ha, rfl⟩
  · exact hrest x hu hx
  · by_cases hx : x = []
    · subst hx
      exact hrest [] (by simpa using ha.symm) rfl
    · by_cases hu : u = []
      · subst hu
        subst ha
        exact hfront f (foundEither?_of_found? hf)
      · have hnone := foundEither?_eq_none (hinside u x ha hu hx) k
        rw [hnone] at hf
        contradiction

/-- A comparison that is found is one of the tokens, if the rewritten text does not start with the first
token still. -/
theorem exists_runOperator {pos : Nat} {t : Token} {w r y : List Char} {qs : List Placed}
    {f : Found (w ++ r)} (hw : Lexeme t w) (hgo : t.goesOn r = false)
    (hr : LexesFrom (pos + byteLength w) r qs) (hf : foundEither? (w ++ r) = some f)
    (htext : Lexes ('t' :: y) (foldRuns (⟨t, pos⟩ :: qs))) :
    (∃ op, runOperator? (⟨t, pos⟩ :: qs) = some op) ∧ startsFraction f.rest = false := by
  obtain ⟨x, hcs⟩ := capital_foundEither? _ f hf
  cases hop : runOperator? (⟨t, pos⟩ :: qs) with
  | none =>
      rw [foldRuns_of_none hop] at htext
      obtain ⟨w', r', heq, hw', -⟩ := htext.exists_first (by rfl)
      obtain ⟨c, v, rfl⟩ := List.exists_cons_of_ne_nil hw.ne_nil
      obtain rfl := (List.cons.inj hcs).1
      exact (Lexeme.absurd_of_ne (a := []) hw hw' heq.symm).elim
  | some op =>
      refine ⟨⟨op, rfl⟩, ?_⟩
      obtain ⟨g, v, k, f', hgv, hg, hf', hfraction⟩ :=
        exists_found_of_runOperator (.token hw hgo hr) hop
      cases g with
      | nil =>
          rw [List.nil_append] at hgv
          subst hgv
          obtain rfl := Option.some.inj (hf.symm.trans (foundEither?_of_found? hf'))
          exact hfraction
      | cons d g =>
          rw [hcs] at hgv
          obtain rfl := (List.cons.inj hgv).1
          exact absurd (hg 'O' (by simp)) (by decide)

/-- No comparison starts within a token that the rewritten text starts with, too. -/
theorem none_inside_of_lexes {t : Token} {w r : List Char} {ts : List Token} (hw : Lexeme t w)
    (htext : Lexes (substitute foundEither? (w ++ r)).2 (t :: ts)) :
    ∀ u v, w = u ++ v → v ≠ [] → foundEither? (v ++ r) = none := by
  rcases substitute_append_cases capital_foundEither? w r with hnone | ⟨a, x, y, rfl, hy⟩
  · exact hnone
  · have hblank : (a ++ 't' :: y).head?.any isBlank = false := by
      cases a with
      | nil => rfl
      | cons c a => exact hw.head?_any_isBlank
    rw [hy] at htext
    obtain ⟨w', r', heq, hw', -⟩ := htext.exists_first hblank
    exact (hw.absurd_of_ne hw' heq.symm).elim

/-- A text is aligned if it starts with a token and a comparison, which nothing goes on with, and is
aligned behind it. -/
theorem Aligned.of_writes {k : AffixKind} {m rest : List Char} {b : Bound} (hm : Writes k m b)
    {pos : Nat} {ps qs : List Placed} (hps : ∀ q ∈ qs, q ∈ ps) (hpos : ∃ p ∈ ps, p.pos = pos)
    (hdigit : rest.head?.any isDecimal = false) (hname : rest.head?.any isNamePart = false)
    (hfraction : startsFraction rest = false) (hrest : Aligned (pos + byteLength m) rest qs) :
    Aligned pos (m ++ rest) ps := by
  refine Aligned.append hps (fun f hf => ?_) (fun u v huv hu hv => ?_) hrest
  · obtain ⟨f', hf', -, hleft⟩ := found?_of_writes hm hdigit
    obtain rfl := Option.some.inj ((foundEither?_of_found? hf').symm.trans hf)
    rw [hleft]
    exact ⟨hpos, hname, hfraction⟩
  · obtain ⟨m', rfl, hO⟩ := hm.exists_cons
    obtain ⟨c, u, rfl⟩ := List.exists_cons_of_ne_nil hu
    obtain ⟨d, v, rfl⟩ := List.exists_cons_of_ne_nil hv
    refine eq_none_of_capital capital_foundEither? ?_
    rintro rfl
    exact hO (by rw [(List.cons.inj huv).2]; simp)

/-- If a text has the rewritten tokens then its comparisons are aligned. -/
theorem aligned_of_lexes {pos : Nat} {cs : List Char} {ps : List Placed} (h : LexesFrom pos cs ps)
    (htext : Lexes (substitute foundEither? cs).2 (foldRuns ps)) : Aligned pos cs ps := by
  induction hn : cs.length using Nat.strongRecOn generalizing pos cs ps with
  | ind n ih =>
      have hlexes := h
      cases h with
      | nil => exact aligned_nil pos []
      | @blank _ c r _ hc hr =>
          have hnone := foundEither?_of_isBlank hc r
          rw [substitute_of_none hnone] at htext
          have htail := ih _ (by rw [← hn]; exact Nat.lt_succ_self _) hr (htext.of_blank hc) rfl
          refine aligned_cons_iff.mpr ⟨fun k _ f hf => ?_, htail⟩
          rw [foundEither?_eq_none hnone k] at hf
          contradiction
      | @token _ t w r qs hw hgo hr =>
          cases hf : foundEither? (w ++ r) with
          | some f =>
              -- the tokens go on with the comparison, and the rewritten text with `true`
              rw [substitute_of_some hf] at htext
              obtain ⟨⟨op, hop⟩, hfraction⟩ := exists_runOperator hw hgo hr hf htext
              obtain ⟨k, hk⟩ := exists_of_foundEither? hf
              obtain ⟨m, hcs, hm, hdigit⟩ := writes_of_found? hk
              rw [hcs] at hlexes
              obtain ⟨run, qs', hps, hlength, -, -, htail⟩ := exists_run hm hdigit hfraction hlexes
              rw [hps] at hop htext
              rw [foldRuns_of_some hlength hop] at htext
              obtain ⟨w', r', heq, hw', hgo', hrest⟩ := htext.exists_first (by rfl)
              obtain rfl := lexeme_ident hw'
              obtain rfl := List.append_cancel_left heq
              have hname := head?_any_of_substitute (by decide) hgo'
              have hmem : ∀ q ∈ qs', q ∈ Placed.mk t pos :: qs := fun q hq => by
                rw [hps]
                exact List.mem_append_right run hq
              rw [hcs]
              exact .of_writes hm hmem ⟨_, List.mem_cons_self, rfl⟩ hdigit hname hfraction
                (ih _ (by rw [← hn]; exact f.length_rest_lt) htail hrest rfl)
          | none =>
              rw [foldRuns_of_none (runOperator?_eq_none hw hgo hr hf)] at htext
              have hnone := none_inside_of_lexes hw htext
              rw [substitute_append_of_none hnone] at htext
              obtain ⟨us, hus, hrest⟩ := htext.of_token hw (goesOn_substitute capital_foundEither? hgo)
              obtain rfl := (List.cons.inj hus).2
              have hlt : r.length < n := by
                have := List.length_pos_iff.mpr hw.ne_nil
                rw [← hn, List.length_append]
                omega
              refine .append (fun q hq => List.mem_cons_of_mem _ hq) (fun f' hf' => ?_)
                (fun u v huv _ => hnone u v huv) (ih _ hlt hr hrest rfl)
              rw [hf] at hf'
              contradiction

/-- **A rewritten text has the rewritten tokens just when its comparisons are aligned.** -/
theorem lexes_substitute_iff {pos : Nat} {cs : List Char} {ps : List Placed}
    (h : LexesFrom pos cs ps) :
    Lexes (substitute foundEither? cs).2 (foldRuns ps) ↔ Aligned pos cs ps :=
  ⟨aligned_of_lexes h, lexes_substitute h⟩

/-! ## blanks around a text -/

theorem head?_any_append {p : Char → Bool} {a b : List Char} (ha : a.head?.any p = false)
    (hb : b.head?.any p = false) : (a ++ b).head?.any p = false := by
  cases a with
  | nil => exact hb
  | cons c a => exact ha

theorem head?_any_of_append {p : Char → Bool} {a b : List Char} (h : (a ++ b).head?.any p = false) :
    a.head?.any p = false := by
  cases a with
  | nil => rfl
  | cons c a => exact h

section Blanks

variable {pos : Nat} {before cs after : List Char} {ps : List Placed}

/-- A comparison in a text with blanks around it is one of the text. -/
theorem exists_of_found_blanks (hbefore : ∀ c ∈ before, isBlank c = true)
    (hafter : ∀ c ∈ after, isBlank c = true) {u v : List Char} (htext : before ++ (cs ++ after) = u ++ v)
    {k : AffixKind} {f : Found v} (hf : found? k v = some f) :
    ∃ x y f', u = before ++ x ∧ cs = x ++ y ∧ found? k y = some f' ∧ f.rest = f'.rest ++ after := by
  obtain ⟨m, hv, hm, hdigit⟩ := writes_of_found? hf
  obtain ⟨x, rfl, hx⟩ : ∃ x, u = before ++ x ∧ cs ++ after = x ++ v := by
    rcases List.append_eq_append_iff.mp htext with ⟨x, hu, hx⟩ | ⟨x, hbefore', hv'⟩
    · exact ⟨x, hu, hx⟩
    · cases x with
      | nil => exact ⟨[], by simpa using hbefore'.symm, hv'.symm⟩
      | cons c x =>
          obtain ⟨w, hO⟩ := capital_found? k v f hf
          rw [hO] at hv'
          obtain rfl := (List.cons.inj hv').1
          exact absurd (hbefore 'O' (by rw [hbefore']; simp)) (by decide)
  rw [hv, ← List.append_assoc] at hx
  obtain ⟨y, hcs, hrest⟩ : ∃ y, cs = x ++ m ++ y ∧ f.rest = y ++ after := by
    rcases List.append_eq_append_iff.mp hx with ⟨y, hxm, hafter'⟩ | ⟨y, hcs, hrest⟩
    · rcases List.eq_nil_or_concat y with rfl | ⟨y, d, rfl⟩
      · exact ⟨[], by simpa using hxm.symm, by simpa using hafter'.symm⟩
      · -- the last digit would be one of the blanks
        obtain ⟨e, hlast, he⟩ := hm.getLast?
        have hmne : m ≠ [] := by rintro rfl; contradiction
        have hd : (x ++ m).getLast? = some d := by rw [hxm]; simp
        rw [List.getLast?_append_of_ne_nil _ hmne, hlast] at hd
        obtain rfl := Option.some.inj hd
        have hblank : isBlank e = true := hafter e (by rw [hafter']; simp)
        rw [isBlank_of_isDecimal he] at hblank
        contradiction
    · exact ⟨y, hcs, hrest⟩
  have hdigit' : y.head?.any isDecimal = false := head?_any_of_append (hrest ▸ hdigit)
  obtain ⟨f', hf', -, hf'rest⟩ := found?_of_writes hm hdigit'
  exact ⟨x, m ++ y, f', rfl, by rw [hcs, List.append_assoc], hf', by rw [hrest, hf'rest]⟩

/-- Blanks around a text make no difference to whether its comparisons are aligned. -/
theorem aligned_blanks_iff (hbefore : ∀ c ∈ before, isBlank c = true)
    (hafter : ∀ c ∈ after, isBlank c = true) :
    Aligned pos (before ++ (cs ++ after)) ps ↔ Aligned (pos + byteLength before) cs ps := by
  have hblank : after.head?.all isBlank = true := by
    cases after with
    | nil => rfl
    | cons c r => exact hafter c (by simp)
  have hapart : startsApart after = true ∧ after.head?.any isNamePart = false := by
    cases after with
    | nil => exact ⟨rfl, rfl⟩
    | cons c r =>
        have happart : startsApart (c :: r) = true := by simp [startsApart, hafter c]
        exact ⟨happart, by simpa using (not_goes_of_apart happart).2.2.2⟩
  constructor
  · intro h u v k f hcs hf
    obtain ⟨m, hv, hm, hdigit⟩ := writes_of_found? hf
    have hdigit' := head?_any_append hdigit (head?_any_isDecimal_of_blank hblank)
    obtain ⟨f', hf', -, hrest⟩ := found?_of_writes hm hdigit'
    have htext : before ++ (cs ++ after) = before ++ u ++ (m ++ (f.rest ++ after)) := by
      rw [hcs, congrArg (u ++ ·) hv]
      simp
    obtain ⟨⟨p, hp, hpos⟩, hname, hfraction⟩ := h _ _ k f' htext hf'
    rw [hrest] at hname hfraction
    exact ⟨⟨p, hp, by rw [hpos, byteLength_append, Nat.add_assoc]⟩, head?_any_of_append hname,
      startsFraction_of_append hfraction⟩
  · intro h u v k f htext hf
    obtain ⟨x, y, f', rfl, hcs, hf', hrest⟩ := exists_of_found_blanks hbefore hafter htext hf
    obtain ⟨⟨p, hp, hpos⟩, hname, hfraction⟩ := h x y k f' hcs hf'
    rw [hrest]
    exact ⟨⟨p, hp, by rw [hpos, byteLength_append, Nat.add_assoc]⟩, head?_any_append hname hapart.2,
      startsFraction_append hfraction hapart.1⟩

end Blanks

/-! ## rules -/

/-- **Rewriting the text of a rule is rewriting its tokens just when its comparisons are aligned**, and
then it asks for open affixes only if its tokens do. -/
theorem prepare_tokens {text : String} {ps : List Placed} (hlexes : tokens text.toList = .ok ps)
    (hfeed : '\n' ∉ text.toList) (hreturn : '\r' ∉ text.toList) (hslash : '/' ∉ text.toList) :
    (Lexes (prepare text).expression.toList (foldRuns ps) ↔ Aligned 0 text.toList ps) ∧
      (Aligned 0 text.toList ps → (prepare text).thresholds.any = true →
        ∃ before qs op, ps = before ++ qs ∧ runOperator? qs = some op ∧ asks op = true) := by
  have hjoin : joinLines (stripComments text.toList) = trim text.toList := by
    rw [stripComments_of_not_mem hslash, joinLines_of_single hreturn hfeed]
  obtain ⟨before, after, htext, hbefore, hafter, hfrom⟩ := lexesFrom_trim (lexesFrom_iff.mpr hlexes)
  have haligned : Aligned 0 (before ++ (trim text.toList ++ after)) ps ↔
      Aligned (0 + byteLength before) (trim text.toList) ps := aligned_blanks_iff hbefore hafter
  rw [← htext] at haligned
  rw [prepare_eq, hjoin, haligned]
  refine ⟨?_, fun htrim hany => ?_⟩
  · show Lexes (String.ofList (substitute foundEither? (trim text.toList)).2).toList _ ↔ _
    rw [String.toList_ofList]
    exact lexes_substitute_iff hfrom
  · rcases Bool.or_eq_true_iff.mp hany with hk | hk
    · exact exists_asks hfrom htrim hk
    · exact exists_asks hfrom htrim hk

theorem prepare_tokens_of_bound :
    Lexes (prepare "true && OpenPrefixCount () >= 2").expression.toList
      [.ident "true", .sym .and, .ident "true"] := by
  have hlexes : tokens "true && OpenPrefixCount () >= 2".toList =
      .ok [⟨.ident "true", 0⟩, ⟨.sym .and, 5⟩, ⟨.ident "OpenPrefixCount", 8⟩, ⟨.sym .lparen, 24⟩,
        ⟨.sym .rparen, 25⟩, ⟨.sym (.cmp .ge), 27⟩, ⟨.int 2, 30⟩] := by
    decide +kernel
  have h := (prepare_tokens hlexes (by decide) (by decide) (by decide)).1.mpr (by decide)
  have hfold : foldRuns [⟨.ident "true", 0⟩, ⟨.sym .and, 5⟩, ⟨.ident "OpenPrefixCount", 8⟩,
      ⟨.sym .lparen, 24⟩, ⟨.sym .rparen, 25⟩, ⟨.sym (.cmp .ge), 27⟩, ⟨.int 2, 30⟩] =
      [.ident "true", .sym .and, .ident "true"] := by
    rfl
  rwa [hfold] at h

/-- A blank between the parentheses: the tokens are those of a comparison, but it is not taken out. -/
theorem prepare_spaced_parens :
    Lexes "OpenPrefixCount( ) >= 1".toList
        [.ident "OpenPrefixCount", .sym .lparen, .sym .rparen, .sym (.cmp .ge), .int 1] ∧
      ¬Lexes (prepare "OpenPrefixCount( ) >= 1").expression.toList [.ident "true"] := by
  have hlexes : Lexes "OpenPrefixCount( ) >= 1".toList
      [.ident "OpenPrefixCount", .sym .lparen, .sym .rparen, .sym (.cmp .ge), .int 1] :=
    ⟨[⟨.ident "OpenPrefixCount", 0⟩, ⟨.sym .lparen, 15⟩, ⟨.sym .rparen, 17⟩, ⟨.sym (.cmp .ge), 19⟩,
      ⟨.int 1, 22⟩], by decide +kernel, rfl⟩
  have hsame : (prepare "OpenPrefixCount( ) >= 1").expression = "OpenPrefixCount( ) >= 1" := by
    have hjoin : joinLines (stripComments "OpenPrefixCount( ) >= 1".toList) =
        'O' :: "penPrefixCount( ) >= 1".toList := by decide
    have hnone : foundEither? ('O' :: "penPrefixCount( ) >= 1".toList) = none := by decide
    rw [prepare_eq, hjoin]
    show String.ofList (substitute foundEither? ('O' :: "penPrefixCount( ) >= 1".toList)).2 = _
    rw [substitute_of_none hnone, substitute_of_not_mem capital_foundEither? (by decide)]
    rfl
  refine ⟨hlexes, fun htrue => ?_⟩
  rw [hsame] at htrue
  exact absurd (hlexes.unique htrue) (by simp)

end ShopLens.Rule
