import Mathlib.Data.List.Induction
import Mathlib.Data.List.Nodup

/-!
# Linked chains

A singly linked list in a memory of link cells: every element owns one cell,
and one more cell, the head, belongs to the owner of the list. `Chain` says
that the links lead through a given list of elements; an element is linked in
or out by changing the cell in front of it.
-/

namespace LinkedChain

variable {α : Type*}

/-- From the cell `o` on, the links lead through the elements `xs`. -/
def Chain (link : Option α → Option α) : Option α → List α → Prop
  | o, [] => link o = none
  | o, a :: rest => link o = some a ∧ Chain link (some a) rest

/-- The last cell of the elements `xs`, or the cell in front of them. -/
def lastCell : Option α → List α → Option α
  | o, [] => o
  | _, a :: rest => lastCell (some a) rest

variable {link link' : Option α → Option α} {o : Option α} {xs ys : List α}
  {a : α}

@[simp] theorem lastCell_append (xs ys : List α) :
    lastCell o (xs ++ ys) = lastCell (lastCell o xs) ys := by
  induction xs generalizing o with
  | nil => rfl
  | cons x rest ih => exact ih

@[simp] theorem lastCell_nil (o : Option α) : lastCell o [] = o := rfl

/-- The last cell is the first one, or that of an element. -/
theorem lastCell_mem (o : Option α) (xs : List α) :
    lastCell o xs ∈ o :: xs.map some := by
  induction xs generalizing o with
  | nil => exact List.mem_cons_self
  | cons x rest ih => exact List.mem_cons_of_mem _ (ih (some x))

theorem lastCell_mem_append (o : Option α) (xs ys : List α) :
    lastCell o xs ∈ o :: (xs ++ ys).map some := by
  have hmem := lastCell_mem o xs
  rw [List.map_append]
  rw [List.mem_cons] at hmem ⊢
  exact hmem.imp id (List.mem_append_left _)

theorem lastCell_none (xs : List α) : lastCell none xs = xs.getLast? := by
  induction xs using List.reverseRecOn with
  | nil => rfl
  | append_singleton xs x _ => simp [lastCell]

/-- The chain depends on the cells of its elements only. -/
theorem Chain.congr (h : Chain link o xs)
    (heq : ∀ c ∈ o :: xs.map some, link' c = link c) : Chain link' o xs := by
  induction xs generalizing o with
  | nil =>
      show link' o = none
      rw [heq o List.mem_cons_self]
      exact h
  | cons x rest ih =>
      refine ⟨?_, ih h.2 fun c hc => heq c (List.mem_cons_of_mem _ hc)⟩
      rw [heq o List.mem_cons_self]
      exact h.1

/-- The part of a chain behind some of its elements. -/
theorem Chain.suffix (h : Chain link o (xs ++ ys)) :
    Chain link (lastCell o xs) ys := by
  induction xs generalizing o with
  | nil => exact h
  | cons x rest ih => exact ih h.2

/-- The first cell of a chain points to the first element. -/
theorem Chain.head (h : Chain link o xs) : link o = xs.head? := by
  cases xs with
  | nil => exact h
  | cons x rest => exact h.1

/-- The cell in front of `a` after `a` has been linked in behind `xs`, and the
cell of `a`. -/
def linkIn [DecidableEq α] (link : Option α → Option α) (p : Option α) (a : α) :
    Option α → Option α :=
  fun c => if c = p then some a else if c = some a then link p else link c

/-- **Linking in**: `a` comes to stand behind `xs`. -/
theorem Chain.linkIn [DecidableEq α] (h : Chain link o (xs ++ ys))
    (hnodup : (o :: (xs ++ a :: ys).map some).Nodup) :
    Chain (linkIn link (lastCell o xs) a) o (xs ++ a :: ys) := by
  induction xs generalizing o with
  | nil =>
      rw [List.nil_append, List.map_cons, List.nodup_cons, List.nodup_cons,
        List.mem_cons, not_or] at hnodup
      obtain ⟨⟨hoa, hoy⟩, hay, hys⟩ := hnodup
      refine ⟨if_pos rfl, ?_⟩
      have ha : LinkedChain.linkIn link o a (some a) = link o := by
        simp [LinkedChain.linkIn, Ne.symm hoa]
      cases ys with
      | nil =>
          show LinkedChain.linkIn link o a (some a) = none
          rw [ha]
          exact h
      | cons y rest =>
          refine ⟨by show LinkedChain.linkIn link o a (some a) = some y
                     rw [ha]; exact h.1, h.2.congr ?_⟩
          intro c hc
          have hco : c ≠ o := fun heq => hoy (heq ▸ hc)
          have hca : c ≠ some a := fun heq => hay (heq ▸ hc)
          simp [LinkedChain.linkIn, hco, hca]
  | cons x rest ih =>
      rw [List.cons_append, List.map_cons, List.nodup_cons] at hnodup
      obtain ⟨ho, hrest⟩ := hnodup
      refine ⟨?_, ih h.2 hrest⟩
      have hop : o ≠ lastCell (some x) rest := fun heq =>
        ho (heq ▸ lastCell_mem_append (some x) rest (a :: ys))
      have hoa : o ≠ some a := by
        rintro rfl
        exact ho (by simp)
      show LinkedChain.linkIn link (lastCell (some x) rest) a o = some x
      simp only [LinkedChain.linkIn, if_neg hop, if_neg hoa]
      exact h.1

/-- The cell in front of `a` after `a` has been linked out. -/
def linkOut [DecidableEq α] (link : Option α → Option α) (p : Option α) (a : α) :
    Option α → Option α :=
  fun c => if c = p then link (some a) else link c

/-- **Linking out**: the element behind `xs` leaves the chain. -/
theorem Chain.linkOut [DecidableEq α] (h : Chain link o (xs ++ a :: ys))
    (hnodup : (o :: (xs ++ a :: ys).map some).Nodup) :
    Chain (linkOut link (lastCell o xs) a) o (xs ++ ys) := by
  induction xs generalizing o with
  | nil =>
      rw [List.nil_append, List.map_cons, List.nodup_cons, List.mem_cons,
        not_or] at hnodup
      obtain ⟨⟨_, hoy⟩, _⟩ := hnodup
      have ha : LinkedChain.linkOut link o a o = link (some a) := if_pos rfl
      cases ys with
      | nil =>
          show LinkedChain.linkOut link o a o = none
          rw [ha]
          exact h.2
      | cons y rest =>
          refine ⟨ha.trans h.2.1, h.2.2.congr ?_⟩
          intro c hc
          have hco : c ≠ o := fun heq => hoy (heq ▸ hc)
          exact if_neg hco
  | cons x rest ih =>
      rw [List.cons_append, List.map_cons, List.nodup_cons] at hnodup
      obtain ⟨ho, hrest⟩ := hnodup
      refine ⟨?_, ih h.2 hrest⟩
      have hop : o ≠ lastCell (some x) rest := fun heq =>
        ho (heq ▸ lastCell_mem_append (some x) rest (a :: ys))
      show LinkedChain.linkOut link (lastCell (some x) rest) a o = some x
      simp only [LinkedChain.linkOut, if_neg hop]
      exact h.1

end LinkedChain
