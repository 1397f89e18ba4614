import Mathlib.Data.List.AList
import Taper.GroupedSums

set_option autoImplicit false

/-!
# Grouping by a key

A list is walked once and each element is appended to the group of its key in a
map.
-/
namespace Taper.Grouping
open GroupedSums

variable {α κ : Type} [DecidableEq κ] (key : α → κ)

abbrev Groups (κ α : Type) := AList fun _ : κ => List α

def collect (groups : Groups κ α) (a : α) : Groups κ α :=
  groups.insert (key a) ((groups.lookup (key a)).getD [] ++ [a])

def group (l : List α) : Groups κ α := l.foldl (collect key) ∅

theorem group_append (l : List α) (a : α) : group key (l ++ [a]) = collect key (group key l) a := by
  rw [group, List.foldl_append]
  rfl

theorem lookup_group (l : List α) (k : κ) :
    (group key l).lookup k =
      if k ∈ l.map key then some (l.filter fun a => key a = k) else none := by
  induction l using List.reverseRecOn with
  | nil => rfl
  | append_singleton l a ih =>
    rw [group_append, collect, List.map_append, List.filter_append]
    by_cases same : key a = k
    · subst same
      have last : [a].filter (fun x => key x = key a) = [a] := List.filter_cons_of_pos (by simp)
      have here : key a ∈ l.map key ++ [a].map key := by simp
      rw [AList.lookup_insert, ih, if_pos here, last]
      split_ifs with known
      · rfl
      · have none : l.filter (fun x => key x = key a) = [] := by
          refine List.filter_eq_nil_iff.2 fun x member own => known ?_
          exact List.mem_map.2 ⟨x, member, of_decide_eq_true own⟩
        rw [none]
        rfl
    · have other : [a].filter (fun x => key x = k) = [] := by simp [same]
      have names : k ∈ l.map key ++ [a].map key ↔ k ∈ l.map key := by simp [Ne.symm same]
      rw [AList.lookup_insert_ne (Ne.symm same), ih, other, List.append_nil]
      simp only [names]

theorem mem_group (l : List α) (k : κ) : k ∈ group key l ↔ k ∈ l.map key := by
  rw [← AList.lookup_isSome, lookup_group]
  split_ifs with known
  · simp [known]
  · simp [known]

theorem group_eq {l : List α} {g : Sigma fun _ : κ => List α} (member : g ∈ (group key l).entries) :
    g.2 = l.filter fun a => key a = g.1 := by
  have found : (group key l).lookup g.1 = some g.2 := AList.mem_lookup_iff.2 member
  rw [lookup_group] at found
  split_ifs at found
  exact (Option.some.inj found).symm

theorem keys_group (l : List α) : (group key l).keys.Perm (l.map key).dedup := by
  refine (List.perm_ext_iff_of_nodup (group key l).keys_nodup (List.nodup_dedup _)).2 fun k => ?_
  rw [List.mem_dedup, ← mem_group, AList.mem_keys]

theorem entries_group (l : List α) :
    (group key l).entries.Perm
      ((l.map key).dedup.map fun k => ⟨k, l.filter fun a => key a = k⟩) := by
  have each : (group key l).entries =
      (group key l).keys.map fun k => ⟨k, l.filter fun a => key a = k⟩ := by
    rw [AList.keys, List.keys, List.map_map]
    refine (List.map_id _).symm.trans (List.map_congr_left fun g member => ?_)
    exact Sigma.ext rfl (heq_of_eq (group_eq key member))
  rw [each]
  exact (keys_group key l).map _

theorem flatMap_group (l : List α) : ((group key l).entries.flatMap (·.2)).Perm l := by
  refine ((entries_group key l).flatMap_right _).trans ?_
  rw [List.flatMap_map]
  have sums := sum_of_groups key (fun a => ({a} : Multiset α)) l (List.Perm.refl _)
  have single : ∀ l : List α, (l.map fun a => ({a} : Multiset α)).sum = l := fun l =>
    Multiset.sum_map_singleton (l : Multiset α)
  simp only [single] at sums
  refine Multiset.coe_eq_coe.1 (Eq.trans ?_ sums)
  rw [← Multiset.coe_bind]
  rfl

end Taper.Grouping
