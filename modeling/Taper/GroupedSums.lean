import Mathlib.Algebra.BigOperators.Group.Finset.Piecewise

set_option autoImplicit false

/-!
# Sums taken group by group

Summing each group of a list first and then the groups, in any order, gives
the sum of the list.
-/
namespace Taper.GroupedSums

variable {α κ M : Type} [DecidableEq κ] [AddCommMonoid M]

theorem filter_cons_sum (key : α → κ) (f : α → M) (a : α) (l : List α) (k : κ) :
    (((a :: l).filter fun x => key x = k).map f).sum =
      (if key a = k then f a else 0) + ((l.filter fun x => key x = k).map f).sum := by
  by_cases h : key a = k
  · simp [h]
  · simp [h]

theorem sum_over_keys (key : α → κ) (f : α → M) (l : List α) (keys : Finset κ)
    (cover : ∀ a ∈ l, key a ∈ keys) :
    ∑ k ∈ keys, ((l.filter fun x => key x = k).map f).sum = (l.map f).sum := by
  induction l with
  | nil => simp
  | cons a l ih =>
    have tail := ih fun x hx => cover x (List.mem_cons_of_mem a hx)
    have head : key a ∈ keys := cover a List.mem_cons_self
    simp only [filter_cons_sum, Finset.sum_add_distrib, tail, List.map_cons, List.sum_cons]
    rw [Finset.sum_ite_eq, if_pos head]

theorem sum_of_groups (key : α → κ) (f : α → M) (l : List α) {groups : List κ}
    (h : groups.Perm (l.map key).dedup) :
    (groups.map fun k => ((l.filter fun x => key x = k).map f).sum).sum = (l.map f).sum := by
  have nodup : groups.Nodup := h.nodup_iff.2 (List.nodup_dedup _)
  rw [← List.sum_toFinset _ nodup]
  apply sum_over_keys
  intro a ha
  rw [List.mem_toFinset, h.mem_iff, List.mem_dedup]
  exact List.mem_map.2 ⟨a, ha, rfl⟩

end Taper.GroupedSums
