import Mathlib.Data.List.Count
import Mathlib.Data.List.Nodup
import Mathlib.Tactic.Common

/-!
# The first rows of a numbered list

A page shows the rows whose number is within a limit, in the order of their numbers. Where the
numbers are `1..n` and follow an order of the rows, these are the first rows in that order.
-/

namespace Swat4Stats

set_option autoImplicit false

universe u

/-- The first `limit` of the rows in the given order. -/
structure TopRows {α : Type u} (before : α → α → Bool) (rows : List α) (limit : ℕ)
    (shown : List α) : Prop where
  subset : shown ⊆ rows
  sorted : shown.Pairwise fun x y => before x y = true
  length : shown.length = min limit rows.length
  best : ∀ x ∈ rows, x ∉ shown → ∀ y ∈ shown, before y x = true

namespace TopRows

variable {α : Type u} {before : α → α → Bool} {rows shown : List α} {number : α → ℕ} {limit : ℕ}

theorem countP_range' (limit n : ℕ) :
    (List.range' 1 n).countP (fun number => number ≤ limit) = min limit n := by
  induction n with
  | zero => simp
  | succ n ih =>
    rw [List.range'_concat, List.countP_append, ih]
    simp only [Nat.one_mul, List.countP_singleton, decide_eq_true_eq]
    split <;> omega

theorem length_filter (hnumbers : (rows.map number).Perm (List.range' 1 rows.length)) :
    (rows.filter fun x => number x ≤ limit).length = min limit rows.length := by
  rw [← List.countP_eq_length_filter, ← countP_range', ← hnumbers.countP_eq, List.countP_map]
  rfl

theorem of_numbered (hnumbers : (rows.map number).Perm (List.range' 1 rows.length))
    (hnumber : ∀ x ∈ rows, ∀ y ∈ rows, number x < number y ↔ before x y = true)
    {sorted : List α} (hperm : sorted.Perm (rows.filter fun x => number x ≤ limit))
    (hsorted : sorted.Pairwise fun x y => number x ≤ number y) :
    TopRows before rows limit (sorted.take limit) := by
  have hlength : sorted.length = min limit rows.length :=
    hperm.length_eq.trans (length_filter hnumbers)
  have hmem : ∀ x, x ∈ sorted ↔ x ∈ rows ∧ number x ≤ limit := fun x => by
    rw [hperm.mem_iff, List.mem_filter, decide_eq_true_eq]
  have hnodup : (sorted.map number).Nodup := by
    have hall : (rows.map number).Nodup := hnumbers.nodup_iff.mpr List.nodup_range'
    exact (hperm.map number).nodup_iff.mpr (hall.sublist (List.filter_sublist.map number))
  rw [List.take_of_length_le (hlength ▸ Nat.min_le_left ..)]
  refine ⟨fun x hx => ((hmem x).mp hx).1, ?_, hlength, fun x hx hnot y hy => ?_⟩
  · refine (hsorted.and (List.pairwise_map.mp hnodup)).imp_of_mem fun hx hy ⟨hle, hne⟩ => ?_
    exact (hnumber _ ((hmem _).mp hx).1 _ ((hmem _).mp hy).1).mp (by omega)
  · obtain ⟨hy, hle⟩ := (hmem y).mp hy
    have hgt : limit < number x := by
      by_contra hge
      exact hnot ((hmem x).mpr ⟨hx, by omega⟩)
    exact (hnumber y hy x hx).mp (by omega)

end TopRows

end Swat4Stats
