import Mathlib.Data.List.Forall2

/-!
# Aligned lists

`List.Forall₂ R as bs` aligns two lists element by element. These lemmas
carry facts about one list over to the other.
-/

namespace Aligned

variable {α β : Type*} {R : α → β → Prop}

/-- Every element of the right list has its partner in the left one. -/
theorem exists_left {as : List α} {bs : List β} (h : List.Forall₂ R as bs)
    {b : β} (hb : b ∈ bs) : ∃ a ∈ as, R a b := by
  induction h with
  | nil => cases hb
  | @cons a b' as bs hab _ ih =>
      rcases List.mem_cons.mp hb with rfl | hb
      · exact ⟨a, List.mem_cons_self, hab⟩
      · obtain ⟨a', ha', hR⟩ := ih hb
        exact ⟨a', List.mem_cons_of_mem _ ha', hR⟩

/-- A relation between the elements of the left list, carried over to their
partners. -/
theorem pairwise_right {S : α → α → Prop} {T : β → β → Prop}
    (hST : ∀ a a' b b', R a b → R a' b' → S a a' → T b b')
    {as : List α} {bs : List β} (h : List.Forall₂ R as bs)
    (hs : as.Pairwise S) : bs.Pairwise T := by
  induction h with
  | nil => exact .nil
  | @cons a b as bs hab hrest ih =>
      rw [List.pairwise_cons] at hs
      refine List.pairwise_cons.mpr ⟨?_, ih hs.2⟩
      intro b' hb'
      obtain ⟨a', ha', hR⟩ := exists_left hrest hb'
      exact hST a a' b b' hab hR (hs.1 a' ha')

/-- The last elements are partners. -/
theorem getLast?_right {as : List α} {bs : List β} (h : List.Forall₂ R as bs)
    {b : β} (hb : bs.getLast? = some b) : ∃ a, as.getLast? = some a ∧ R a b := by
  induction h with
  | nil => simp at hb
  | @cons a b' as bs hab hrest ih =>
      cases hrest with
      | nil =>
          simp only [List.getLast?_singleton, Option.some.injEq] at hb
          subst hb
          exact ⟨a, rfl, hab⟩
      | cons h1 h2 =>
          rw [List.getLast?_cons_cons] at hb
          obtain ⟨a', ha', hR⟩ := ih hb
          exact ⟨a', by rwa [List.getLast?_cons_cons], hR⟩

/-- The first elements are partners. -/
theorem head?_right {as : List α} {bs : List β} (h : List.Forall₂ R as bs)
    {b : β} (hb : bs.head? = some b) : ∃ a, as.head? = some a ∧ R a b := by
  cases h with
  | nil => cases hb
  | @cons a _ _ _ hab _ =>
      rw [List.head?_cons, Option.some.injEq] at hb
      subst hb
      exact ⟨a, rfl, hab⟩

end Aligned
