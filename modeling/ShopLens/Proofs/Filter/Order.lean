import Mathlib.Data.String.Basic
import ShopLens.Proofs.Filter.Sameness

/-!
# ShopLens.Proofs.Filter.Order

The comparison operators as an order on the values without floats.

Two such values meet in one of four ways (`Comparison.Meeting`), and each says at once what all six
operators tell of them, from both sides: one is null, they are ordered, only their sameness is known, or
they cannot be compared. How the operators fit together is read off the four
(`Comparison.apply_mirror`, `Comparison.apply_ne`, `Comparison.apply_of_ordered`).

Over three values, `==` is equality (`Comparison.apply_eq_iff`), and `<` is the order of integers or the
order of texts (`Comparison.apply_lt_iff`); so both are transitive.
-/

namespace ShopLens.Filter

namespace Comparison

/-- The operator that tells the same of two values from the other side. -/
def mirror : Comparison → Comparison
  | eq => eq
  | ne => ne
  | ge => le
  | le => ge
  | gt => lt
  | lt => gt

/-- How two values meet under the operators. -/
inductive Meeting (a b : Value) : Prop where
  /-- One is null, and every comparison is false. -/
  | absent (hnull : a = .null ∨ b = .null)
      (h : ∀ op : Comparison, op.apply a b = .ok false ∧ op.apply b a = .ok false)
  | ordered (o : Ordering)
      (h : ∀ op : Comparison, op.apply a b = .ok (op.holds o) ∧ op.apply b a = .ok (op.holds o.swap))
  /-- Only whether they are the same is known. -/
  | matched (kind : Value.Kind) (same : Bool)
      (h : ∀ op : Comparison, op.apply a b = op.holdsOfSameness kind same ∧
        op.apply b a = op.holdsOfSameness kind same)
  | apart (h : ∀ op : Comparison, (∃ e, op.apply a b = .error e) ∧ ∃ e, op.apply b a = .error e)

variable {a b c : Value}

theorem holds_mirror (op : Comparison) (o : Ordering) : op.mirror.holds o.swap = op.holds o := by
  cases op <;> cases o <;> rfl

theorem toOption_holdsOfSameness_mirror (op : Comparison) (kind : Value.Kind) (same : Bool) :
    (op.mirror.holdsOfSameness kind same).toOption = (op.holdsOfSameness kind same).toOption := by
  cases op <;> rfl

/-- Values without floats meet in one of the four ways. -/
theorem meeting (ha : a.FloatFree) (hb : b.FloatFree) : Meeting a b := by
  cases ha with
  | null => exact .absent (.inl rfl) fun op => ⟨rfl, op.apply_null b⟩
  | bool x => cases hb with
    | null => exact .absent (.inr rfl) fun op => ⟨rfl, rfl⟩
    | bool y => exact .matched .bool (x == y) fun op => ⟨rfl, by rw [apply, Bool.beq_comm]⟩
    | _ => exact .apart fun op => ⟨⟨_, rfl⟩, ⟨_, rfl⟩⟩
  | int m => cases hb with
    | null => exact .absent (.inr rfl) fun op => ⟨rfl, rfl⟩
    | int n => exact .ordered (compare m n) fun op =>
        ⟨rfl, by rw [apply, Std.OrientedOrd.eq_swap]⟩
    | _ => exact .apart fun op => ⟨⟨_, rfl⟩, ⟨_, rfl⟩⟩
  | str s => cases hb with
    | null => exact .absent (.inr rfl) fun op => ⟨rfl, rfl⟩
    | str t => exact .ordered (compare s t) fun op =>
        ⟨rfl, by rw [apply, Std.OrientedOrd.eq_swap]⟩
    | _ => exact .apart fun op => ⟨⟨_, rfl⟩, ⟨_, rfl⟩⟩
  | list hus => cases hb with
    | null => exact .absent (.inr rfl) fun op => ⟨rfl, rfl⟩
    | list hvs =>
        have hsame := (Value.FloatFree.list hvs).same_comm (.list hus)
        simp only [Value.same] at hsame
        exact .matched .list _ fun op => ⟨rfl, by rw [apply, hsame]⟩
    | _ => exact .apart fun op => ⟨⟨_, rfl⟩, ⟨_, rfl⟩⟩

/-! ## two values -/

/-- An operator and its mirror, from the other side, fail together or tell the same. -/
theorem apply_mirror (h : Meeting a b) (op : Comparison) :
    (op.apply a b).toOption = (op.mirror.apply b a).toOption := by
  cases h with
  | absent _ h => rw [(h op).1, (h op.mirror).2]
  | ordered o h => rw [(h op).1, (h op.mirror).2, holds_mirror]
  | matched kind same h => rw [(h op).1, (h op.mirror).2, toOption_holdsOfSameness_mirror]
  | apart h =>
      obtain ⟨e, he⟩ := (h op).1
      obtain ⟨e', he'⟩ := (h op.mirror).2
      rw [he, he']
      rfl

/-- Of values that can be compared, `!=` is the negation of `==`. -/
theorem apply_ne (h : Meeting a b) (ha : a ≠ .null) (hb : b ≠ .null)
    (hdefined : (eq.apply a b).isOk = true) : ne.apply a b = (eq.apply a b).map (!·) := by
  cases h with
  | absent hnull => exact (hnull.elim ha hb).elim
  | ordered o h => rw [(h ne).1, (h eq).1]; cases o <;> rfl
  | matched kind same h => rw [(h ne).1, (h eq).1]; rfl
  | apart h =>
      obtain ⟨e, he⟩ := (h eq).1
      rw [he] at hdefined
      contradiction

/-- Values that have an order are ordered in one way, which all operators tell. -/
theorem exists_ordering (h : Meeting a b) (ha : a ≠ .null) (hb : b ≠ .null)
    (hdefined : (lt.apply a b).isOk = true) : ∃ o, ∀ op : Comparison, op.apply a b = .ok (op.holds o) := by
  cases h with
  | absent hnull => exact (hnull.elim ha hb).elim
  | ordered o h => exact ⟨o, fun op => (h op).1⟩
  | matched kind same h =>
      rw [(h lt).1] at hdefined
      contradiction
  | apart h =>
      obtain ⟨e, he⟩ := (h lt).1
      rw [he] at hdefined
      contradiction

/-- One of `<`, `==` and `>` holds of an order. -/
theorem existsUnique_holds (o : Ordering) :
    ∃! op : Comparison, op ∈ [lt, eq, gt] ∧ op.holds o = true := by
  cases o with
  | lt => exact ⟨lt, by decide, fun op => by cases op <;> decide⟩
  | eq => exact ⟨eq, by decide, fun op => by cases op <;> decide⟩
  | gt => exact ⟨gt, by decide, fun op => by cases op <;> decide⟩

/-! ## three values -/

/-- Values of which a comparison holds are of one type. -/
theorem kind_eq_of_apply (ha : a.FloatFree) (hb : b.FloatFree) {op : Comparison}
    (h : op.apply a b = .ok true) : a.kind = b.kind := by
  cases ha <;> cases hb <;> simp [apply, Value.kind] at h ⊢

/-- The operator `==` holds of a value and itself, unless it is null, and of no other values. -/
theorem apply_eq_iff (ha : a.FloatFree) (hb : b.FloatFree) :
    eq.apply a b = .ok true ↔ a = b ∧ a ≠ .null := by
  rw [← ha.same_iff, Value.same_iff]
  constructor
  · intro h
    refine ⟨.inr ⟨kind_eq_of_apply ha hb h, h⟩, ?_⟩
    rintro rfl
    cases h
  · rintro ⟨⟨hnull, -⟩ | ⟨-, h⟩, hne⟩
    · exact absurd hnull hne
    · exact h

/-- The operator `<` is the order of integers and the order of texts. -/
theorem apply_lt_iff (ha : a.FloatFree) (hb : b.FloatFree) : lt.apply a b = .ok true ↔
    (∃ m n, a = .int m ∧ b = .int n ∧ m < n) ∨ ∃ s t, a = .str s ∧ b = .str t ∧ s < t := by
  have hholds : ∀ o : Ordering, lt.holds o = true ↔ o = .lt := fun o => beq_iff_eq
  constructor
  · intro h
    have hkind := kind_eq_of_apply ha hb h
    cases ha with
    | int m => cases hb with
      | int n =>
          rw [apply, Except.ok.injEq, hholds, compare_lt_iff_lt] at h
          exact .inl ⟨m, n, rfl, rfl, h⟩
      | _ => contradiction
    | str s => cases hb with
      | str t =>
          rw [apply, Except.ok.injEq, hholds, compare_lt_iff_lt] at h
          exact .inr ⟨s, t, rfl, rfl, h⟩
      | _ => contradiction
    | null => cases h
    | bool => cases hb <;> contradiction
    | list => cases hb <;> contradiction
  · rintro (⟨m, n, rfl, rfl, h⟩ | ⟨s, t, rfl, rfl, h⟩)
    · rw [apply, Except.ok.injEq, hholds, compare_lt_iff_lt]
      exact h
    · rw [apply, Except.ok.injEq, hholds, compare_lt_iff_lt]
      exact h

theorem apply_lt_trans (ha : a.FloatFree) (hb : b.FloatFree) (hc : c.FloatFree)
    (hab : lt.apply a b = .ok true) (hbc : lt.apply b c = .ok true) : lt.apply a c = .ok true := by
  rw [apply_lt_iff ha hb] at hab
  rw [apply_lt_iff hb hc] at hbc
  rw [apply_lt_iff ha hc]
  rcases hab with ⟨m, n, rfl, rfl, hmn⟩ | ⟨s, t, rfl, rfl, hst⟩
  · rcases hbc with ⟨n', k, hn, rfl, hnk⟩ | ⟨_, _, hn, -⟩
    · obtain rfl := Value.int.inj hn
      exact .inl ⟨m, k, rfl, rfl, hmn.trans hnk⟩
    · contradiction
  · rcases hbc with ⟨_, _, ht, -⟩ | ⟨t', u, ht, rfl, htu⟩
    · contradiction
    · obtain rfl := Value.str.inj ht
      exact .inr ⟨s, u, rfl, rfl, hst.trans htu⟩

theorem apply_eq_trans (ha : a.FloatFree) (hb : b.FloatFree) (hab : eq.apply a b = .ok true)
    (hbc : eq.apply b c = .ok true) : eq.apply a c = .ok true := by
  obtain ⟨rfl, -⟩ := (apply_eq_iff ha hb).mp hab
  exact hbc

/-- **The operators fit together** on values without floats. From the other side the mirrored operator
tells the same. Of two values other than null that can be compared, `!=` is the negation of `==`; of two
that have an order, `>=` is the negation of `<` and `<=` the negation of `>`, and one of `<`, `==` and
`>` holds. Both `<` and `==` are transitive. -/
theorem operators_agree (ha : a.FloatFree) (hb : b.FloatFree) (hc : c.FloatFree) :
    (∀ op : Comparison, (op.apply a b).toOption = (op.mirror.apply b a).toOption) ∧
      (a ≠ .null → b ≠ .null → (eq.apply a b).isOk = true →
        ne.apply a b = (eq.apply a b).map (!·) ∧
        ((∀ op ∈ [ge, le, gt, lt], (op.apply a b).isOk = true) →
          ge.apply a b = (lt.apply a b).map (!·) ∧ le.apply a b = (gt.apply a b).map (!·) ∧
            ∃! op : Comparison, op ∈ [lt, eq, gt] ∧ op.apply a b = .ok true)) ∧
      ∀ op ∈ [lt, eq], op.apply a b = .ok true → op.apply b c = .ok true →
        op.apply a c = .ok true := by
  have hmeeting := meeting ha hb
  refine ⟨apply_mirror hmeeting, ?_, ?_⟩
  · intro hane hbne heq
    refine ⟨apply_ne hmeeting hane hbne heq, fun hdefined => ?_⟩
    obtain ⟨o, ho⟩ := exists_ordering hmeeting hane hbne (hdefined lt (by simp))
    simp only [ho, Except.ok.injEq]
    refine ⟨?_, ?_, existsUnique_holds o⟩
    · cases o <;> rfl
    · cases o <;> rfl
  · intro op hop hab hbc
    simp only [List.mem_cons, List.not_mem_nil, or_false] at hop
    rcases hop with rfl | rfl
    · exact apply_lt_trans ha hb hc hab hbc
    · exact apply_eq_trans ha hb hab hbc

/-- Three texts in their order, the first one a start of the second one. -/
theorem operators_agree_on_names :
    let ring : Value := .str "ring"
    let mail : Value := .str "ring mail"
    let sash : Value := .str "sash"
    ring.FloatFree ∧ mail.FloatFree ∧ sash.FloatFree ∧ (gt.apply mail ring).toOption = some true ∧
      ge.apply ring mail = .ok false ∧ lt.apply ring sash = .ok true := by
  intro ring mail sash
  have hring : ring.FloatFree := .str _
  have hmail : mail.FloatFree := .str _
  have hsash : sash.FloatFree := .str _
  obtain ⟨hmirror, hnegation, htrans⟩ := operators_agree hring hmail hsash
  have hfirst : lt.apply ring mail = .ok true := rfl
  have hdefined : ∀ op ∈ [ge, le, gt, lt], (op.apply ring mail).isOk = true :=
    List.all_eq_true.mp rfl
  have horder := (hnegation nofun nofun rfl).2 hdefined
  refine ⟨hring, hmail, hsash, ?_, ?_, htrans lt (by simp) hfirst rfl⟩
  · have hback : (lt.apply ring mail).toOption = (gt.apply mail ring).toOption := hmirror lt
    rw [← hback, hfirst]
    rfl
  · rw [horder.1, hfirst]
    rfl

end Comparison

end ShopLens.Filter
