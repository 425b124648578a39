import Mathlib.Data.List.Basic

/-!
# Merge sort with the strict part of an order

`List.mergeSort` may be given a test that is false on elements that are tied, in both
directions. The list that it makes is sorted by the order all the same; which of two tied
elements comes first is not said. A list without ties is sorted in one way only.
-/

namespace MergeSorting

variable {α : Type*} {r : α → α → Prop} {lt : α → α → Bool}

/-- `lt` is a strict part of the order `r`. -/
structure StrictPart (r : α → α → Prop) (lt : α → α → Bool) : Prop where
  trans : ∀ a b c, r a b → r b c → r a c
  of_lt : ∀ a b, lt a b = true → r a b
  of_not_lt : ∀ a b, lt a b = false → r b a

theorem StrictPart.pairwise_merge (h : StrictPart r lt) {l₁ l₂ : List α}
    (h₁ : l₁.Pairwise r) (h₂ : l₂.Pairwise r) : (List.merge l₁ l₂ lt).Pairwise r := by
  induction l₁ generalizing l₂ with
  | nil => simpa only [List.nil_merge] using h₂
  | cons x l₁ ih₁ =>
      induction l₂ with
      | nil => simpa only [List.merge_right] using h₁
      | cons y l₂ ih₂ =>
          obtain ⟨hx, htail₁⟩ := List.pairwise_cons.mp h₁
          obtain ⟨hy, htail₂⟩ := List.pairwise_cons.mp h₂
          cases hlt : lt x y with
          | true =>
              have hxy := h.of_lt x y hlt
              rw [List.cons_merge_cons_pos _ _ _ hlt]
              refine List.pairwise_cons.mpr ⟨fun z hz => ?_, ih₁ htail₁ h₂⟩
              rcases List.mem_merge.mp hz with hz | hz
              · exact hx z hz
              · rcases List.mem_cons.mp hz with rfl | hz
                · exact hxy
                · exact h.trans x y z hxy (hy z hz)
          | false =>
              have hyx := h.of_not_lt x y hlt
              rw [List.cons_merge_cons_neg _ _ _ (by simp [hlt])]
              refine List.pairwise_cons.mpr ⟨fun z hz => ?_, ih₂ htail₂⟩
              rcases List.mem_merge.mp hz with hz | hz
              · rcases List.mem_cons.mp hz with rfl | hz
                · exact hyx
                · exact h.trans y x z hyx (hx z hz)
              · exact hy z hz

/-- **The list is sorted**, with ties in some order. -/
theorem StrictPart.pairwise_mergeSort (h : StrictPart r lt) :
    ∀ l : List α, (l.mergeSort lt).Pairwise r
  | [] => by simp
  | [a] => by simp
  | a :: b :: l => by
      rw [List.mergeSort]
      exact h.pairwise_merge (h.pairwise_mergeSort _) (h.pairwise_mergeSort _)
termination_by l => l.length

/-- Two lists of the same elements are sorted in the same way, if `r` ties none of them. -/
theorem StrictPart.mergeSort_congr (h : StrictPart r lt) {l₁ l₂ : List α} (hperm : l₁.Perm l₂)
    (hties : ∀ a ∈ l₁, ∀ b ∈ l₁, r a b → r b a → a = b) :
    l₁.mergeSort lt = l₂.mergeSort lt := by
  have hsorted : (l₁.mergeSort lt).Perm (l₂.mergeSort lt) :=
    (List.mergeSort_perm l₁ lt).trans (hperm.trans (List.mergeSort_perm l₂ lt).symm)
  refine hsorted.eq_of_pairwise ?_ (h.pairwise_mergeSort l₁) (h.pairwise_mergeSort l₂)
  intro a b ha hb hab hba
  exact hties a (List.mem_mergeSort.mp ha) b
    (hperm.mem_iff.mpr (List.mem_mergeSort.mp hb)) hab hba

end MergeSorting
