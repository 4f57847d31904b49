import ShopLens.Proofs.Rule.Tokens

/-!
# ShopLens.Proofs.Rule.Rewriting

Taking comparisons out of a text, seen on its tokens. Comparisons are looked for among characters, so one
may be found within a text literal or at the end of a longer name, and may end within a longer number or
before a name. In texts where none is (`Aligned`), what is left has the tokens of the text with `true` in
the place of each comparison (`lexes_substitute`), and numbers are asked for only where the tokens of a
comparison do so (`exists_asks`).
-/

namespace ShopLens.Rule

open ShopLens.Text ShopLens.Filter

/-! ## comparisons among tokens -/

/-- The tokens with `true` in the place of each comparison of open affixes. -/
def foldRuns : List Placed → List Token
  | a :: b :: c :: d :: e :: qs =>
    match runOperator? (a :: b :: c :: d :: e :: qs) with
    | some _ => .ident "true" :: foldRuns qs
    | none => a.token :: foldRuns (b :: c :: d :: e :: qs)
  | ps => bare ps

theorem foldRuns_of_none {p : Placed} {r : List Placed} (h : runOperator? (p :: r) = none) :
    foldRuns (p :: r) = p.token :: foldRuns r := by
  match r with
  | [] | [_] | [_, _] | [_, _, _] => rfl
  | _ :: _ :: _ :: _ :: _ => rw [foldRuns, h]

theorem foldRuns_of_some {run qs : List Placed} {op : Comparison} (hlength : run.length = 5)
    (h : runOperator? (run ++ qs) = some op) :
    foldRuns (run ++ qs) = .ident "true" :: foldRuns qs := by
  match run, hlength with
  | [_, _, _, _, _], _ =>
      rw [List.cons_append, List.cons_append, List.cons_append, List.cons_append, List.cons_append,
        List.nil_append] at h ⊢
      rw [foldRuns, h]

/-- Every comparison in a text starts where a token starts, and neither a name nor a fraction goes on
with it. -/
def Aligned (pos : Nat) (cs : List Char) (ps : List Placed) : Prop :=
  ∀ u v k (f : Found v), cs = u ++ v → found? k v = some f →
    (∃ p ∈ ps, p.pos = pos + byteLength u) ∧
      f.rest.head?.any isNamePart = false ∧ startsFraction f.rest = false

/-- What stands behind some characters and their tokens is aligned. -/
theorem Aligned.of_append {pos : Nat} {cs r : List Char} {ps qs : List Placed}
    (h : Aligned pos cs ps) (a : List Char) (before : List Placed) (hcs : cs = a ++ r)
    (hps : ps = before ++ qs) (hbefore : ∀ p ∈ before, p.pos < pos + byteLength a) :
    Aligned (pos + byteLength a) r qs := by
  intro u v k f hr hf
  obtain ⟨⟨p, hp, hpos⟩, hrest⟩ := h (a ++ u) v k f (by rw [hcs, hr, List.append_assoc]) hf
  rw [byteLength_append] at hpos
  refine ⟨⟨p, ?_, by omega⟩, hrest⟩
  rw [hps] at hp
  rcases List.mem_append.mp hp with hp | hp
  · have := hbefore p hp
    omega
  · exact hp

theorem aligned_nil (pos : Nat) (ps : List Placed) : Aligned pos [] ps := by
  intro u v k f hcs hf
  obtain ⟨-, rfl⟩ := List.append_eq_nil_iff.mp hcs.symm
  exact absurd f.length_rest_lt (Nat.not_lt_zero _)

theorem aligned_cons_iff {pos : Nat} {c : Char} {r : List Char} {ps : List Placed} :
    Aligned pos (c :: r) ps ↔
      (∀ k ∈ [AffixKind.prefixMod, .suffixMod], ∀ f ∈ found? k (c :: r), (∃ p ∈ ps, p.pos = pos) ∧
        f.rest.head?.any isNamePart = false ∧ startsFraction f.rest = false) ∧
      Aligned (pos + c.utf8Size) r ps := by
  constructor
  · intro h
    refine ⟨fun k _ f hf => h [] _ k f rfl hf, fun u v k f hr hf => ?_⟩
    have hfound := h (c :: u) v k f (by rw [hr]; rfl) hf
    rwa [byteLength_cons, ← Nat.add_assoc] at hfound
  · rintro ⟨hhere, hr⟩ u v k f hcs hf
    cases u with
    | nil =>
        rw [List.nil_append] at hcs
        subst hcs
        exact hhere k (by cases k <;> simp) f hf
    | cons d u =>
        obtain ⟨rfl, rfl⟩ := List.cons.inj hcs
        rw [byteLength_cons, ← Nat.add_assoc]
        exact hr u v k f rfl hf

instance decidableAligned (pos : Nat) (cs : List Char) (ps : List Placed) :
    Decidable (Aligned pos cs ps) :=
  match cs with
  | [] => isTrue (aligned_nil pos ps)
  | c :: r =>
    have := decidableAligned (pos + c.utf8Size) r ps
    decidable_of_iff' _ aligned_cons_iff

/-! ## the rewritten text -/

section Pass

variable {find : (cs : List Char) → Option (Found cs)} {cs r w : List Char}

theorem head?_substitute_of_ne (hfind : Capital find) (h : cs.head? ≠ some 'O') :
    (substitute find cs).2.head? = cs.head? := by
  cases cs with
  | nil => simp [substitute]
  | cons c r =>
      rw [substitute_of_none (eq_none_of_capital hfind fun hc => h (by rw [hc]; rfl))]
      rfl

theorem substitute_append_of_none
    (h : ∀ u v, w = u ++ v → v ≠ [] → find (v ++ r) = none) :
    substitute find (w ++ r) = ((substitute find r).1, w ++ (substitute find r).2) := by
  induction w with
  | nil => rfl
  | cons c w ih =>
      have hc : find (c :: (w ++ r)) = none := h [] (c :: w) rfl (by simp)
      have hw := ih fun u v huv => h (c :: u) v (by rw [huv]; rfl)
      rw [List.cons_append, substitute_of_none hc, hw]
      rfl

theorem startsFraction_substitute (hfind : Capital find) :
    startsFraction (substitute find r).2 = startsFraction r := by
  cases r with
  | nil => simp [substitute]
  | cons c r =>
      cases h : find (c :: r) with
      | none =>
          rw [substitute_of_none h, startsFraction_cons, startsFraction_cons,
            head?_substitute hfind (by decide) (by decide)]
      | some f =>
          obtain ⟨w, hcs⟩ := hfind _ _ h
          obtain rfl : c = 'O' := (List.cons.inj hcs).1
          rw [substitute_of_some h, List.cons_append, startsFraction_cons, startsFraction_cons]
          rfl

/-- A token goes on with what a pass leaves only if it went on with the text. -/
theorem goesOn_substitute (hfind : Capital find) {t : Token} (h : t.goesOn r = false) :
    t.goesOn (substitute find r).2 = false := by
  have hany {p : Char → Bool} (ht : p 't' = false) (hO : p 'O' = false) :
      (substitute find r).2.head?.any p = r.head?.any p := head?_substitute hfind ht hO
  have hequal (o : Option Char) : decide (o = some '=') = o.any (· == '=') := by
    cases o with
    | none => rfl
    | some c => simp [beq_eq_decide]
  unfold Token.goesOn at *
  split
  · rwa [hequal, hany (by decide) (by decide), ← hequal]
  · rwa [hequal, hany (by decide) (by decide), ← hequal]
  · rwa [hequal, hany (by decide) (by decide), ← hequal]
  · rwa [hany (by decide) (by decide), startsFraction_substitute hfind]
  · rwa [hany (by decide) (by decide)]
  · -- no comparison follows a name, which would go on with it
    rw [head?_substitute_of_ne hfind]
    · exact h
    · intro hO
      have hpart : r.head?.any isNamePart = false := h
      rw [hO] at hpart
      exact absurd hpart (by decide)
  · rfl

end Pass

/-- No comparison starts within a token. -/
theorem Aligned.none_inside {pos : Nat} {t : Token} {w r u v : List Char} {qs : List Placed}
    (h : Aligned pos (w ++ r) (⟨t, pos⟩ :: qs)) (hr : LexesFrom (pos + byteLength w) r qs)
    (huv : w = u ++ v) (hu : u ≠ []) (hv : v ≠ []) : foundEither? (v ++ r) = none := by
  cases hf : foundEither? (v ++ r) with
  | none => rfl
  | some f =>
      obtain ⟨k, hk⟩ := exists_of_foundEither? hf
      obtain ⟨⟨p, hp, hpos⟩, -⟩ := h u _ k f (by rw [huv, List.append_assoc]) hk
      have hlength : byteLength w = byteLength u + byteLength v := by rw [huv, byteLength_append]
      have hupos := byteLength_pos hu
      have hvpos := byteLength_pos hv
      rcases List.mem_cons.mp hp with rfl | hp
      · simp only at hpos
        omega
      · have := hr.le_pos p hp
        omega

/-- Where no comparison is found there are no tokens of one. -/
theorem runOperator?_eq_none {pos : Nat} {t : Token} {w r : List Char} {qs : List Placed}
    (hw : Lexeme t w) (hgo : t.goesOn r = false) (hr : LexesFrom (pos + byteLength w) r qs)
    (hf : foundEither? (w ++ r) = none) : runOperator? (⟨t, pos⟩ :: qs) = none := by
  cases hop : runOperator? (⟨t, pos⟩ :: qs) with
  | none => rfl
  | some op =>
      obtain ⟨g, v, k, f, hcs, hg, hk, -⟩ := exists_found_of_runOperator (.token hw hgo hr) hop
      obtain ⟨c, r', hhead, hc, -⟩ := readToken_of_lexeme hw hgo
      cases g with
      | nil =>
          rw [hcs, List.nil_append] at hf
          rw [foundEither?_eq_none hf k] at hk
          contradiction
      | cons d g =>
          rw [hcs] at hhead
          obtain rfl := (List.cons.inj hhead).1
          rw [hg d (by simp)] at hc
          contradiction

/-- A text whose comparisons are aligned has the tokens with the comparisons replaced. -/
theorem lexes_substitute {pos : Nat} {cs : List Char} {ps : List Placed} (h : LexesFrom pos cs ps)
    (haligned : Aligned pos cs ps) : Lexes (substitute foundEither? cs).2 (foldRuns ps) := by
  induction hn : cs.length using Nat.strongRecOn generalizing pos cs ps with
  | ind n ih =>
      have hlexes := h
      cases h with
      | nil => simpa [substitute, foldRuns] using Lexes.nil
      | @blank _ c r _ hc hr =>
          have htail := haligned.of_append [c] [] rfl rfl (by simp)
          rw [substitute_of_none (foundEither?_of_isBlank hc r)]
          exact .blank hc (ih _ (by rw [← hn]; exact Nat.lt_succ_self _) hr htail rfl)
      | @token _ t w r qs hw hgo hr =>
          cases hf : foundEither? (w ++ r) with
          | some f =>
              obtain ⟨k, hk⟩ := exists_of_foundEither? hf
              obtain ⟨m, hcs, hm, hdigit⟩ := writes_of_found? hk
              obtain ⟨-, hname, hfraction⟩ := haligned [] _ k f rfl hk
              rw [hcs] at hlexes
              obtain ⟨run, ps, hps, hlength, hop, hrun, htail⟩ :=
                exists_run hm hdigit hfraction hlexes
              have hps' := haligned.of_append m run hcs hps hrun
              rw [substitute_of_some hf, hps, foldRuns_of_some hlength (by rwa [← hps])]
              have htrue : Lexeme (.ident "true") ['t', 'r', 'u', 'e'] :=
                .ident (by decide)
              refine .token htrue ?_ ?_
              · refine goesOn_substitute capital_foundEither? ?_
                exact hname
              · exact ih _ (by rw [← hn]; exact f.length_rest_lt) htail hps' rfl
          | none =>
              have hinside (u v : List Char) (huv : w = u ++ v) (hv : v ≠ []) :
                  foundEither? (v ++ r) = none := by
                by_cases hu : u = []
                · rw [hu, List.nil_append] at huv
                  rwa [← huv]
                · exact haligned.none_inside hr huv hu hv
              have hqs := haligned.of_append w [⟨t, pos⟩] rfl rfl
                (by simp [byteLength_pos hw.ne_nil])
              rw [substitute_append_of_none hinside,
                foldRuns_of_none (runOperator?_eq_none hw hgo hr hf)]
              refine .token hw (goesOn_substitute capital_foundEither? hgo) ?_
              refine ih _ ?_ hr hqs rfl
              rw [← hn, List.length_append]
              have := List.length_pos_iff.mpr hw.ne_nil
              omega

/-! ## the numbers asked for -/

/-- Whether a comparison of open affixes with an operator asks for a number. -/
def asks (op : Comparison) : Bool := op = .eq || op = .ge || op = .gt

theorem exists_asks_of_leastOf {bounds : List Bound} (h : (leastOf bounds).isSome = true) :
    ∃ b ∈ bounds, asks b.op = true := by
  unfold leastOf at h
  split at h
  · next n hn =>
      obtain ⟨b, hb, hexact⟩ := List.mem_filterMap.mp (List.mem_of_getLast? hn)
      refine ⟨b, hb, ?_⟩
      unfold Bound.exact? at hexact
      split at hexact
      · next heq => simp [asks, heq]
      · contradiction
  · obtain ⟨n, hn⟩ := Option.isSome_iff_exists.mp h
    obtain ⟨b, hb, hleast⟩ := List.mem_filterMap.mp (List.max?_mem hn)
    refine ⟨b, hb, ?_⟩
    unfold Bound.least? at hleast
    split at hleast
    · next heq => simp [asks, heq]
    · next heq => simp [asks, heq]
    · contradiction

/-- What is taken out of a text was found in it. -/
theorem exists_found_of_mem_extract {k : AffixKind} {cs : List Char} {b : Bound}
    (h : b ∈ (extract k cs).1) : ∃ u v f, cs = u ++ v ∧ found? k v = some f ∧ f.bound = b := by
  rw [extract_eq_substitute] at h
  induction cs using substitute.induct (found? k) with
  | case1 => simp [substitute] at h
  | case2 c r f hf bounds text hrest ih =>
      rw [substitute_of_some hf] at h
      rcases List.mem_cons.mp h with rfl | h
      · exact ⟨[], _, f, rfl, hf, rfl⟩
      · obtain ⟨w, hcs⟩ := capital_found? k _ f hf
        obtain ⟨u, v, f', hrest, hf', hb⟩ := ih h
        exact ⟨'O' :: (w ++ u), v, f', by rw [hcs, hrest]; simp, hf', hb⟩
  | case3 c r hf bounds text hrest ih =>
      rw [substitute_of_none hf] at h
      obtain ⟨u, v, f, hr, hf', hb⟩ := ih h
      exact ⟨c :: u, v, f, by rw [hr]; rfl, hf', hb⟩

/-- Where a token starts the text has the tokens from there on. -/
theorem exists_tokens_at {pos : Nat} {cs u v : List Char} {ps : List Placed}
    (h : LexesFrom pos cs ps) (hcs : cs = u ++ v) {p : Placed} (hp : p ∈ ps)
    (hpos : p.pos = pos + byteLength u) :
    ∃ before qs, ps = before ++ qs ∧ LexesFrom (pos + byteLength u) v qs := by
  induction h generalizing u with
  | nil => contradiction
  | @blank pos c r qs hc hr ih =>
      cases u with
      | nil => exact ⟨[], qs, rfl, by subst hcs; exact .blank hc hr⟩
      | cons d u =>
          obtain ⟨rfl, hr'⟩ := List.cons.inj hcs
          rw [byteLength_cons, ← Nat.add_assoc] at hpos ⊢
          exact ih hr' hp hpos
  | @token pos t w r qs hw hgo hr ih =>
      have hwpos := byteLength_pos hw.ne_nil
      rcases List.mem_cons.mp hp with rfl | hp
      · obtain rfl : u = [] := by
          by_contra hu
          have := byteLength_pos hu
          simp only at hpos
          omega
        exact ⟨[], _, rfl, by subst hcs; exact .token hw hgo hr⟩
      · have hle := hr.le_pos p hp
        obtain ⟨a, rfl, hra⟩ : ∃ a, u = w ++ a ∧ r = a ++ v := by
          rcases List.append_eq_append_iff.mp hcs with ⟨a, hu, hra⟩ | ⟨a, hw', hv⟩
          · exact ⟨a, hu, hra⟩
          · obtain rfl : a = [] := by
              by_contra ha
              have := byteLength_pos ha
              rw [hw', byteLength_append] at hle
              omega
            exact ⟨[], by simpa using hw'.symm, by simpa using hv.symm⟩
        rw [byteLength_append, ← Nat.add_assoc] at hpos ⊢
        obtain ⟨before, qs', rfl, hqs'⟩ := ih hra hp hpos
        exact ⟨_ :: before, qs', rfl, hqs'⟩

/-- A rule asks for open affixes only if its tokens hold a comparison that does. -/
theorem exists_asks {pos : Nat} {cs : List Char} {ps : List Placed} (h : LexesFrom pos cs ps)
    (haligned : Aligned pos cs ps) {k : AffixKind} (hk : (leastOf (extract k cs).1).isSome = true) :
    ∃ before qs op, ps = before ++ qs ∧ runOperator? qs = some op ∧ asks op = true := by
  obtain ⟨b, hb, hasks⟩ := exists_asks_of_leastOf hk
  obtain ⟨u, v, f, hcs, hf, rfl⟩ := exists_found_of_mem_extract hb
  obtain ⟨⟨p, hp, hpos⟩, -, hfraction⟩ := haligned u v k f hcs hf
  obtain ⟨before, qs, hps, hqs⟩ := exists_tokens_at h hcs hp hpos
  obtain ⟨m, hv, hm, hdigit⟩ := writes_of_found? hf
  rw [hv] at hqs
  obtain ⟨-, -, -, -, hop, -⟩ := exists_run hm hdigit hfraction hqs
  exact ⟨before, qs, _, hps, hop, hasks⟩

end ShopLens.Rule
