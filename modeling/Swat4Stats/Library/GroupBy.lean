import Mathlib.Algebra.BigOperators.Group.List.Basic
import Mathlib.Algebra.Ring.Nat
import Mathlib.Data.List.Dedup
import Mathlib.Data.List.Perm.Basic
import Mathlib.Data.List.ReduceOption

/-!
# Groups of rows

`GROUP BY` takes the rows apart by a key. Put together again the groups are the rows in another
order, so a sum over the groups is the sum over the rows, and the same holds of a count of distinct
values that have one group each and of a maximum.
-/

namespace Swat4Stats

set_option autoImplicit false

namespace GroupBy

universe u v w

variable {α : Type u} {κ : Type v} {β : Type w} [DecidableEq κ]

def group (key : α → κ) (rows : List α) (k : κ) : List α := rows.filter fun x => key x = k

def keys (key : α → κ) (rows : List α) : List κ := (rows.map key).dedup

variable {key : α → κ} {rows : List α}

theorem mem_group {x : α} {k : κ} : x ∈ group key rows k ↔ x ∈ rows ∧ key x = k := by
  simp [group]

theorem nodup_keys (key : α → κ) (rows : List α) : (keys key rows).Nodup := List.nodup_dedup _

theorem key_mem_keys {x : α} (hx : x ∈ rows) : key x ∈ keys key rows :=
  List.mem_dedup.mpr (List.mem_map_of_mem hx)

theorem perm_flatMap_group (key : α → κ) {ks : List κ} (hks : ks.Nodup) (rows : List α) :
    (ks.flatMap (group key rows)).Perm (rows.filter fun x => key x ∈ ks) := by
  induction ks generalizing rows with
  | nil => simp
  | cons k ks ih =>
    obtain ⟨hfresh, hks⟩ := List.nodup_cons.mp hks
    have hothers : ks.flatMap (group key rows) =
        ks.flatMap (group key (rows.filter fun x => key x ≠ k)) := by
      apply List.flatMap_congr
      intro k' hk'
      have hne : k' ≠ k := by
        rintro rfl
        exact hfresh hk'
      rw [group, group, List.filter_filter]
      apply List.filter_congr
      intro x _
      by_cases hx : key x = k' <;> simp [hx, hne]
    have hfirst : group key rows k =
        (rows.filter fun x => key x ∈ k :: ks).filter fun x => key x = k := by
      rw [group, List.filter_filter]
      apply List.filter_congr
      intro x _
      by_cases hx : key x = k <;> simp [hx]
    have hrest : (rows.filter fun x => key x ≠ k).filter (fun x => key x ∈ ks) =
        (rows.filter fun x => key x ∈ k :: ks).filter fun x => !decide (key x = k) := by
      rw [List.filter_filter, List.filter_filter]
      apply List.filter_congr
      intro x _
      by_cases hx : key x = k <;> simp [hx, hfresh]
    rw [List.flatMap_cons, hothers, hfirst]
    apply List.Perm.trans (List.Perm.append_left _ (ih hks _))
    rw [hrest]
    exact List.filter_append_perm _ _

theorem perm_flatMap_keys (key : α → κ) (rows : List α) :
    ((keys key rows).flatMap (group key rows)).Perm rows := by
  have hall : (rows.filter fun x => key x ∈ keys key rows) = rows := by
    rw [List.filter_eq_self]
    exact fun x hx => decide_eq_true (key_mem_keys hx)
  have hperm := perm_flatMap_group key (nodup_keys key rows) rows
  rwa [hall] at hperm

/-- The rows of a left join that have a key, by that key. -/
theorem reduceOption_group (key : α → κ) (rows : List (Option α)) (k : κ) :
    (group (Option.map key) rows (some k)).reduceOption = group key rows.reduceOption k := by
  induction rows with
  | nil => rfl
  | cons row rows ih =>
    cases row with
    | none => exact ih
    | some row =>
      rw [List.reduceOption_cons_of_some, group, List.filter_cons, group, List.filter_cons]
      obtain rfl | hne := eq_or_ne (key row) k
      · simpa [group] using ih
      · simpa [group, hne] using ih

omit [DecidableEq κ] in
theorem lookup_map_pair [BEq κ] [LawfulBEq κ] (f : κ → β) (ks : List κ) (k : κ) :
    (ks.map fun k => (k, f k)).lookup k = if k ∈ ks then some (f k) else none := by
  induction ks with
  | nil => rfl
  | cons k' ks ih =>
    rw [List.map_cons, List.lookup_cons, ih]
    obtain rfl | hne := eq_or_ne k k'
    · simp
    · have hbeq : (k == k') = false := beq_eq_false_iff_ne.mpr hne
      simp [hbeq, hne]

section Sums

variable {M : Type w} [AddCommMonoid M]

theorem sum_group {ks : List κ} (hks : ks.Nodup) (f : α → M) (rows : List α) :
    (ks.map fun k => ((group key rows k).map f).sum).sum =
      ((rows.filter fun x => key x ∈ ks).map f).sum := by
  rw [← ((perm_flatMap_group key hks rows).map f).sum_eq, List.map_flatMap, List.flatMap_def,
    List.sum_flatten, List.map_map]
  rfl

theorem sum_keys (f : α → M) (rows : List α) :
    ((keys key rows).map fun k => ((group key rows k).map f).sum).sum = (rows.map f).sum := by
  rw [← ((perm_flatMap_keys key rows).map f).sum_eq, List.map_flatMap, List.flatMap_def,
    List.sum_flatten, List.map_map]
  rfl

theorem sum_filter (p : α → Bool) (f : α → M) (rows : List α) :
    ((rows.filter p).map f).sum = (rows.map fun x => if p x then f x else 0).sum := by
  induction rows with
  | nil => rfl
  | cons x rows ih =>
    rw [List.map_cons, List.sum_cons, ← ih, List.filter_cons]
    split
    · rw [List.map_cons, List.sum_cons]
    · rw [zero_add]

end Sums

/-- A value that occurs in one group only is counted once. -/
theorem sum_length_dedup [DecidableEq β] {column : α → Option β}
    (hone : ∀ x ∈ rows, ∀ y ∈ rows, ∀ b ∈ column x, b ∈ column y → key x = key y) :
    ((keys key rows).map fun k => ((group key rows k).filterMap column).dedup.length).sum =
      (rows.filterMap column).dedup.length := by
  have hperm : ((keys key rows).flatMap fun k =>
      ((group key rows k).filterMap column).dedup).Perm (rows.filterMap column).dedup := by
    rw [List.perm_ext_iff_of_nodup _ (List.nodup_dedup _)]
    · intro b
      simp only [List.mem_flatMap, List.mem_dedup, List.mem_filterMap, mem_group]
      constructor
      · rintro ⟨_, _, x, ⟨hx, _⟩, hb⟩
        exact ⟨x, hx, hb⟩
      · rintro ⟨x, hx, hb⟩
        exact ⟨key x, key_mem_keys hx, x, ⟨hx, rfl⟩, hb⟩
    · rw [List.nodup_flatMap]
      refine ⟨fun k _ => List.nodup_dedup _, ?_⟩
      apply (nodup_keys key rows).imp
      intro k k' hne b hb hb'
      simp only [List.mem_dedup, List.mem_filterMap, mem_group] at hb hb'
      obtain ⟨x, ⟨hx, rfl⟩, hb⟩ := hb
      obtain ⟨y, ⟨hy, rfl⟩, hb'⟩ := hb'
      exact hne (hone x hx y hy b hb hb')
  rw [← hperm.length_eq, List.length_flatMap]

/-- The greatest of the maxima of the groups that have one. -/
theorem max?_keys [LE β] [Max β] [Std.IsLinearOrder β] [Std.LawfulOrderMax β]
    (column : α → Option β) (rows : List α) :
    ((keys key rows).filterMap fun k => ((group key rows k).filterMap column).max?).max? =
      (rows.filterMap column).max? := by
  cases hmax : (rows.filterMap column).max? with
  | none =>
    rw [List.max?_eq_none_iff] at hmax ⊢
    rw [List.filterMap_eq_nil_iff] at hmax ⊢
    intro k _
    rw [List.max?_eq_none_iff, List.filterMap_eq_nil_iff]
    exact fun x hx => hmax x (mem_group.mp hx).1
  | some b =>
    rw [List.max?_eq_some_iff] at hmax ⊢
    obtain ⟨hb, hle⟩ := hmax
    obtain ⟨x, hx, hxb⟩ := List.mem_filterMap.mp hb
    constructor
    · rw [List.mem_filterMap]
      refine ⟨key x, key_mem_keys hx, List.max?_eq_some_iff.mpr ⟨?_, ?_⟩⟩
      · exact List.mem_filterMap.mpr ⟨x, mem_group.mpr ⟨hx, rfl⟩, hxb⟩
      · intro c hc
        obtain ⟨y, hy, hyc⟩ := List.mem_filterMap.mp hc
        exact hle c (List.mem_filterMap.mpr ⟨y, (mem_group.mp hy).1, hyc⟩)
    · intro c hc
      obtain ⟨k, _, hk⟩ := List.mem_filterMap.mp hc
      obtain ⟨hc, _⟩ := List.max?_eq_some_iff.mp hk
      obtain ⟨y, hy, hyc⟩ := List.mem_filterMap.mp hc
      exact hle c (List.mem_filterMap.mpr ⟨y, (mem_group.mp hy).1, hyc⟩)

end GroupBy

end Swat4Stats
