import ShopLens.Filter.Eval

/-!
# ShopLens.Proofs.Filter.Sameness

Two notions of equality: sameness, which is structural (`Value.same`), and what the operator `==` tells
of two values.

For values of one type both agree (`Comparison.apply_eq_of_kind_eq`), null apart: null is the same as
null, but a comparison with null is false. Values of two types are never the same
(`Value.kind_eq_of_same`), though `==` may hold of an integer and a float. Without floats sameness is
equality (`Value.FloatFree.same_iff`).

Elements are compared by sameness, where a list is compared with another one and where it is searched;
so `contains_list_iff` says how far the search agrees with `==`.
-/

namespace ShopLens

/-- A value that holds no float, at any depth. -/
inductive Value.FloatFree : Value → Prop where
  | null : FloatFree .null
  | bool (b : Bool) : FloatFree (.bool b)
  | int (n : Int) : FloatFree (.int n)
  | str (s : String) : FloatFree (.str s)
  | list {items : List Value} (h : ∀ v ∈ items, FloatFree v) : FloatFree (.list items)

/-! ## floats -/

section Floats

open Float.Model

/-- The order of two floats, seen from the other side. -/
theorem unpacked_compare_swap (x y : UnpackedFloat) :
    y.compare x = (x.compare y).map Ordering.swap := by
  have hmagnitude : ∀ (e e' : Int) (m m' : Nat), (compare e' e).then (compare m' m) =
      ((compare e e').then (compare m m')).swap := by
    intro e e' m m'
    rw [Ordering.swap_then, ← Std.OrientedOrd.eq_swap, ← Std.OrientedOrd.eq_swap]
  cases x with
  | notANumber => cases y <;> rfl
  | infinity s =>
      cases y with
      | infinity s' => cases s <;> cases s' <;> rfl
      | _ => cases s <;> rfl
  | zero s =>
      cases y with
      | infinity s' => cases s' <;> rfl
      | finite s' => cases s' <;> rfl
      | _ => rfl
  | finite s m e =>
      cases y with
      | infinity s' => cases s' <;> rfl
      | zero s' => cases s <;> rfl
      | notANumber => rfl
      | finite s' m' e' =>
          have h := hmagnitude e e' m m'
          cases s with
          | positive => cases s' with
            | positive => exact congrArg some h
            | negative => rfl
          | negative => cases s' with
            | positive => rfl
            | negative => exact congrArg (fun o => some o.swap) h

theorem float_lt_iff {x y : Float} :
    x < y ↔ x.toModel.unpack.compare y.toModel.unpack = some .lt := by
  show decide (x.toModel < y.toModel) = true ↔ _
  rw [decide_eq_true_iff]
  exact beq_iff_eq

end Floats

namespace Filter.Comparison

/-- The operator `==` on floats is their equality: equal floats have no order. -/
theorem eq_holdsOfFloats (x y : Float) : eq.holdsOfFloats x y = (x == y) := by
  have hbeq : (x == y) = (x.toModel.unpack.compare y.toModel.unpack == some .eq) := rfl
  rw [holdsOfFloats, hbeq]
  simp only [float_lt_iff, unpacked_compare_swap x.toModel.unpack y.toModel.unpack]
  cases x.toModel.unpack.compare y.toModel.unpack with
  | none => rfl
  | some o => cases o <;> rfl

end Filter.Comparison

/-! ## sameness and the operator -/

section Sameness

variable {u v : Value}

theorem Value.kind_eq_of_same (h : u.same v = true) : u.kind = v.kind := by
  cases u <;> cases v <;> simp [Value.same, Value.kind] at h ⊢

/-- The operator `==` tells whether two values of one type are the same, unless they are null. -/
theorem Filter.Comparison.apply_eq_of_kind_eq (hkind : u.kind = v.kind) (hv : v ≠ .null) :
    eq.apply u v = .ok (u.same v) := by
  have hcompare : ∀ {α : Type} [Ord α] [Std.LawfulEqOrd α] [DecidableEq α] (x y : α),
      eq.holds (compare x y) = (x == y) := by
    intro α _ _ _ x y
    rw [Bool.eq_iff_iff, beq_iff_eq, holds, beq_iff_eq, Std.LawfulEqOrd.compare_eq_iff_eq]
  cases u with
  | null => cases v with
    | null => exact absurd rfl hv
    | _ => contradiction
  | bool a => cases v with
    | bool b => rfl
    | _ => contradiction
  | int m => cases v with
    | int n => rw [apply, hcompare, Value.same]
    | _ => contradiction
  | float x => cases v with
    | float y => rw [apply, eq_holdsOfFloats, Value.same]
    | _ => contradiction
  | str s => cases v with
    | str t => rw [apply, hcompare, Value.same]
    | _ => contradiction
  | list us => cases v with
    | list vs => rw [apply, holdsOfSameness, Value.same]
    | _ => contradiction

theorem Filter.Comparison.apply_null (op : Comparison) (u : Value) : op.apply u .null = .ok false := by
  cases u <;> rfl

/-- Two values are the same if they are null, or if they have one type and are equal for the
operator. -/
theorem Value.same_iff : u.same v = true ↔
    u = .null ∧ v = .null ∨ u.kind = v.kind ∧ Filter.Comparison.eq.apply u v = .ok true := by
  constructor
  · intro h
    have hkind := kind_eq_of_same h
    by_cases hv : v = .null
    · subst hv
      cases u with
      | null => exact .inl ⟨rfl, rfl⟩
      | _ => contradiction
    · exact .inr ⟨hkind, by rw [Filter.Comparison.apply_eq_of_kind_eq hkind hv, h]⟩
  · rintro (⟨rfl, rfl⟩ | ⟨hkind, heq⟩)
    · rfl
    · by_cases hv : v = .null
      · rw [hv, Filter.Comparison.apply_null] at heq
        cases heq
      · rw [Filter.Comparison.apply_eq_of_kind_eq hkind hv] at heq
        exact Except.ok.inj heq

theorem Value.sameAll_iff {us vs : List Value}
    (h : ∀ u ∈ us, ∀ v, u.same v = true ↔ u = v) : sameAll us vs = true ↔ us = vs := by
  induction us generalizing vs with
  | nil => cases vs <;> simp [sameAll]
  | cons u us ih =>
      cases vs with
      | nil => simp [sameAll]
      | cons v vs =>
          have hu := h u List.mem_cons_self v
          have hus := @ih vs fun u hu => h u (List.mem_cons_of_mem _ hu)
          simp [sameAll, hu, hus]

/-- Without floats, to be the same is to be equal. -/
theorem Value.FloatFree.same_iff (h : u.FloatFree) : u.same v = true ↔ u = v := by
  induction h generalizing v with
  | list h ih => cases v <;> simp [Value.same, sameAll_iff ih]
  | _ => cases v <;> simp [Value.same]

theorem Value.FloatFree.same_comm (hu : u.FloatFree) (hv : v.FloatFree) : u.same v = v.same u := by
  rw [Bool.eq_iff_iff, hu.same_iff, hv.same_iff, eq_comm]

end Sameness

/-! ## the search in a list -/

namespace Filter

/-- **A list holds a value** if one of its elements is the same, that is, if both are null or both have
one type and `==` holds of them. -/
theorem contains_list_iff {limits : AffixLimits} {l : Listing} {target needle : Expr}
    {items : List Value} {v : Value} (htarget : target.eval limits l = .ok (.list items))
    (hneedle : needle.eval limits l = .ok v) :
    ∃ found, (Expr.search .anywhere target needle).eval limits l = .ok (.bool found) ∧
      (found = true ↔ ∃ e ∈ items, e = .null ∧ v = .null ∨
        e.kind = v.kind ∧ Comparison.eq.apply e v = .ok true) := by
  refine ⟨items.any (·.same v), ?_, ?_⟩
  · rw [Expr.eval, htarget, hneedle]
    rfl
  · simp only [List.any_eq_true, Value.same_iff]

/-- The integer 3 is found among sockets that are reported as numbers of both types. -/
theorem contains_list_of_sockets :
    let sockets : List Value := [.null, .float 3, .int 3]
    let ring := { Item.ring 1 with fields := Fields.ofList [("Sockets", .list sockets)] }
    let l := Listing.shown ring .shopItem .zero 0 .zero
    (Expr.field "Sockets").eval {} l = .ok (.list sockets) ∧
      (Expr.search .anywhere (.field "Sockets") (.literal (.int 3))).eval {} l = .ok (.bool true) := by
  intro sockets ring l
  have hsockets : (Expr.field "Sockets").eval {} l = .ok (.list sockets) := rfl
  have hneedle : (Expr.literal (.int 3)).eval {} l = .ok (.int 3) := rfl
  obtain ⟨found, heval, hfound⟩ := contains_list_iff hsockets hneedle
  have hthree : Value.int 3 ∈ sockets := by simp [sockets]
  rw [heval, hfound.mpr ⟨.int 3, hthree, .inr ⟨rfl, rfl⟩⟩]
  exact ⟨hsockets, rfl⟩

/-- Null is found though `==` holds of it and no element, and 3.0 is not found though `==` holds of it
and an element. -/
theorem contains_apart_from_eq :
    ¬ (searchIn .anywhere (.list [.null, .int 3]) .null = .ok (.bool true) ↔
        ∃ e ∈ [Value.null, .int 3], Comparison.eq.apply e .null = .ok true) ∧
      ¬ (searchIn .anywhere (.list [.null, .int 3]) (.float 3) = .ok (.bool true) ↔
        ∃ e ∈ [Value.null, .int 3], Comparison.eq.apply e (.float 3) = .ok true) := by
  constructor
  · intro h
    obtain ⟨e, -, he⟩ := h.mp rfl
    rw [Comparison.apply_null] at he
    cases he
  · intro h
    have hmissed : searchIn .anywhere (.list [.null, .int 3]) (.float 3) = .ok (.bool false) := rfl
    rw [h.mpr ⟨.int 3, by simp, rfl⟩] at hmissed
    cases hmissed

end Filter

end ShopLens
