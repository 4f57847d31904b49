import Mathlib.Data.List.Induction

/-!
# ShopLens.Proofs.History

Histories: what happened so far, the latest last. Whether something that happened has a property may depend
on what happened before it, so a property is asked of both.

A history grows at its end. What is said here of the last occurrence of a property (`Latest`), and of a
property without one (`Never`), is therefore unfolded one step from the end (`latest_concat_iff`,
`never_concat_iff`), as inductions over a run of the program need it.
-/

namespace ShopLens

variable {α : Type} {P : List α → α → Prop} {past : List α} {a b : α}

/-- Nothing that happened had a property. -/
def Never (P : List α → α → Prop) (past : List α) : Prop :=
  ∀ before a after, past = before ++ a :: after → ¬ P before a

/-- This happened with a property, and nothing after it had the property. -/
def Latest (P : List α → α → Prop) (past : List α) (a : α) : Prop :=
  ∃ before after, past = before ++ a :: after ∧ P before a ∧
    Never (fun between => P (before ++ a :: between)) after

theorem Latest.mem (h : Latest P past a) : a ∈ past := by
  obtain ⟨before, after, rfl, -, -⟩ := h
  exact List.mem_append_right _ List.mem_cons_self

/-- Something that happened in a longer history is what was added, or it happened before. -/
theorem concat_eq_append_cons_iff {before after : List α} :
    past ++ [b] = before ++ a :: after ↔
      past = before ∧ b = a ∧ after = [] ∨
        ∃ rest, past = before ++ a :: rest ∧ after = rest ++ [b] := by
  constructor
  · intro h
    rcases List.eq_nil_or_concat after with rfl | ⟨rest, c, rfl⟩
    · obtain ⟨hpast, hlast⟩ := List.append_inj' h rfl
      exact .inl ⟨hpast, List.singleton_inj.mp hlast, rfl⟩
    · rw [List.concat_eq_append, ← List.cons_append, ← List.append_assoc] at h
      obtain ⟨hpast, hlast⟩ := List.append_inj' h rfl
      obtain rfl := List.singleton_inj.mp hlast
      exact .inr ⟨rest, hpast, List.concat_eq_append⟩
  · rintro (⟨rfl, rfl, rfl⟩ | ⟨rest, rfl, rfl⟩)
    · rfl
    · rw [List.append_assoc, List.cons_append]

/-! ## at the start -/

theorem never_nil : Never P [] :=
  fun before _ _ h => absurd h.symm (List.append_ne_nil_of_right_ne_nil before nofun)

theorem not_latest_nil : ¬ Latest P [] a :=
  fun h => List.not_mem_nil h.mem

/-! ## one step later -/

theorem never_concat_iff : Never P (past ++ [b]) ↔ Never P past ∧ ¬ P past b := by
  constructor
  · intro h
    refine ⟨fun before a after heq => h before a (after ++ [b]) ?_, h past b [] rfl⟩
    exact concat_eq_append_cons_iff.mpr (.inr ⟨after, heq, rfl⟩)
  · rintro ⟨hpast, hlast⟩ before a after heq
    rcases concat_eq_append_cons_iff.mp heq with ⟨rfl, rfl, -⟩ | ⟨rest, hrest, -⟩
    · exact hlast
    · exact hpast before a rest hrest

theorem latest_concat_iff :
    Latest P (past ++ [b]) a ↔ P past b ∧ a = b ∨ ¬ P past b ∧ Latest P past a := by
  constructor
  · rintro ⟨before, after, heq, ha, hafter⟩
    rcases concat_eq_append_cons_iff.mp heq with ⟨rfl, rfl, -⟩ | ⟨rest, rfl, rfl⟩
    · exact .inl ⟨ha, rfl⟩
    · obtain ⟨hrest, hlast⟩ := never_concat_iff.mp hafter
      exact .inr ⟨hlast, before, rest, rfl, ha, hrest⟩
  · rintro (⟨hb, rfl⟩ | ⟨hb, before, rest, rfl, ha, hrest⟩)
    · exact ⟨past, [], rfl, hb, never_nil⟩
    · refine ⟨before, rest ++ [b], ?_, ha, never_concat_iff.mpr ⟨hrest, hb⟩⟩
      exact concat_eq_append_cons_iff.mpr (.inr ⟨rest, rfl, rfl⟩)

/-- There is one last occurrence. -/
theorem Latest.eq (ha : Latest P past a) (hb : Latest P past b) : a = b := by
  induction past using List.reverseRecOn with
  | nil => exact absurd ha not_latest_nil
  | append_singleton past c ih =>
      rcases latest_concat_iff.mp ha with ⟨hc, rfl⟩ | ⟨hc, ha⟩
      · rcases latest_concat_iff.mp hb with ⟨-, rfl⟩ | ⟨hnot, -⟩
        · rfl
        · exact absurd hc hnot
      · rcases latest_concat_iff.mp hb with ⟨hnot, -⟩ | ⟨-, hb⟩
        · exact absurd hnot hc
        · exact ih ha hb

end ShopLens
