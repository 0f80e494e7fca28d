import Mathlib.Data.List.Sort
import Swat4Stats.Library.Table

/-!
# Keyset pagination

A reader asks page by page for the rows after the last key it has seen. What comes after a key
depends on the rows there only, so the table may change behind that key between two pages.
-/

namespace Swat4Stats

set_option autoImplicit false

universe u v

namespace Table

variable {α : Type u} {κ : Type v} {key : α → κ} [LinearOrder κ]

/-- `WHERE p ORDER BY key`. -/
def ordered (t : Table α key) (p : α → Bool) : List α :=
  (t.rows.filter p).insertionSort fun x y => key x ≤ key y

variable {t u : Table α key} {p : α → Bool} {k : κ} {l : List α} {x y : α} {n : ℕ}

theorem mem_ordered : x ∈ t.ordered p ↔ x ∈ t.rows ∧ p x = true := by
  rw [ordered, List.mem_insertionSort, List.mem_filter]

theorem pairwise_ordered : (t.ordered p).Pairwise fun x y => key x < key y := by
  have : Std.Total fun x y : α => key x ≤ key y := ⟨fun x y => le_total (key x) (key y)⟩
  have : IsTrans α fun x y : α => key x ≤ key y := ⟨fun _ _ _ hxy hyz => hxy.trans hyz⟩
  have hperm := List.perm_insertionSort (fun x y : α => key x ≤ key y) (t.rows.filter p)
  have hkeys : (t.ordered p).Pairwise fun x y => key x ≠ key y :=
    List.pairwise_map.mp ((hperm.map key).nodup_iff.mpr
      (t.nodup.sublist (List.filter_sublist.map key)))
  exact ((List.pairwise_insertionSort _ _).and hkeys).imp fun hboth =>
    lt_of_le_of_ne hboth.1 hboth.2

theorem exists_ordered (t : Table α key) (p : α → Prop) :
    ∃ l : List α, l.Pairwise (fun x y => key x < key y) ∧ ∀ x, x ∈ l ↔ x ∈ t.rows ∧ p x := by
  classical
  refine ⟨t.ordered (p ·), pairwise_ordered, fun x => ?_⟩
  rw [mem_ordered, decide_eq_true_eq]

/-- There is one way to put rows in the order of their keys. -/
theorem eq_ordered (hsorted : l.Pairwise fun x y => key x < key y)
    (h : ∀ x, x ∈ l ↔ x ∈ t.rows ∧ p x = true) : l = t.ordered p := by
  have hnodup : ∀ {l : List α}, (l.Pairwise fun x y => key x < key y) → l.Nodup :=
    fun hl => hl.imp fun hlt heq => (heq ▸ hlt).false
  have hperm : l.Perm (t.ordered p) :=
    (List.perm_ext_iff_of_nodup (hnodup hsorted) (hnodup pairwise_ordered)).mpr fun x =>
      (h x).trans mem_ordered.symm
  exact hperm.eq_of_pairwise (fun _ _ _ _ hxy hyx => (hxy.asymm hyx).elim) hsorted
    pairwise_ordered

/-- `WHERE p AND key > k ORDER BY key`. -/
def after (t : Table α key) (p : α → Bool) (k : κ) : List α :=
  t.ordered fun x => p x && decide (k < key x)

theorem mem_after : x ∈ t.after p k ↔ x ∈ t.rows ∧ p x = true ∧ k < key x := by
  rw [after, mem_ordered, Bool.and_eq_true, decide_eq_true_eq]

theorem pairwise_after : (t.after p k).Pairwise fun x y => key x < key y := pairwise_ordered

theorem after_of_lt (h : ∀ x ∈ t.rows, k < key x) : t.after p k = t.ordered p := by
  apply eq_ordered pairwise_after
  intro x
  rw [mem_after]
  constructor
  · rintro ⟨hx, hp, _⟩
    exact ⟨hx, hp⟩
  · rintro ⟨hx, hp⟩
    exact ⟨hx, hp, h x hx⟩

theorem after_congr (h : ∀ l, k < l → t.find? l = u.find? l) : t.after p k = u.after p k := by
  have hmem : ∀ x, k < key x → (x ∈ t.rows ↔ x ∈ u.rows) := by
    intro x hk
    have ht : t.find? (key x) = some x ↔ _ := find?_eq_some_iff
    have hu : u.find? (key x) = some x ↔ _ := find?_eq_some_iff
    rw [and_iff_left rfl] at ht hu
    rw [← ht, ← hu, h _ hk]
  apply eq_ordered pairwise_after
  intro x
  rw [mem_after, Bool.and_eq_true, decide_eq_true_eq]
  constructor
  · rintro ⟨hx, hp, hk⟩
    exact ⟨(hmem x hk).mp hx, hp, hk⟩
  · rintro ⟨hx, hp, hk⟩
    exact ⟨(hmem x hk).mpr hx, hp, hk⟩

theorem key_le_getLast (hsorted : l.Pairwise fun x y => key x < key y)
    (hlast : l.getLast? = some x) (hy : y ∈ l) : key y ≤ key x := by
  obtain ⟨init, rfl⟩ := List.getLast?_eq_some_iff.mp hlast
  obtain hy | hy := List.mem_append.mp hy
  · exact ((List.pairwise_append.mp hsorted).2.2 y hy x List.mem_cons_self).le
  · rw [List.mem_singleton.mp hy]

theorem after_getLast (hlast : ((t.after p k).take n).getLast? = some x) :
    t.after p (key x) = (t.after p k).drop n := by
  have hsorted : (t.after p k).Pairwise fun x y => key x < key y := pairwise_after
  have hx : x ∈ (t.after p k).take n := List.mem_of_getLast? hlast
  obtain ⟨_, _, hk⟩ := mem_after.mp (List.mem_of_mem_take hx)
  rw [← List.take_append_drop n (t.after p k), List.pairwise_append] at hsorted
  obtain ⟨htake, hdrop, hcross⟩ := hsorted
  symm
  apply eq_ordered hdrop
  intro y
  rw [Bool.and_eq_true, decide_eq_true_eq]
  constructor
  · intro hy
    obtain ⟨hrow, hp, _⟩ := mem_after.mp (List.mem_of_mem_drop hy)
    exact ⟨hrow, hp, hcross x hx y hy⟩
  · rintro ⟨hrow, hp, hlt⟩
    have hy : y ∈ (t.after p k).take n ++ (t.after p k).drop n := by
      rw [List.take_append_drop]
      exact mem_after.mpr ⟨hrow, hp, hk.trans hlt⟩
    obtain hy | hy := List.mem_append.mp hy
    · exact absurd hlt (key_le_getLast htake hlast hy).not_gt
    · exact hy

end Table

/-- Full pages, and a last one that is shorter and may be empty. -/
inductive Pages {α : Type u} (size : ℕ) : List α → List (List α) → Prop
  | last {l : List α} (hlt : l.length < size) : Pages size l [l]
  | full {l : List α} {pages : List (List α)} (hle : size ≤ l.length)
      (hrest : Pages size (l.drop size) pages) : Pages size l (l.take size :: pages)

namespace Pages

variable {α : Type u} {size : ℕ} {l : List α} {pages : List (List α)}

theorem flatten_eq (h : Pages size l pages) : pages.flatten = l := by
  induction h with
  | last _ => simp
  | full _ _ ih => rw [List.flatten_cons, ih, List.take_append_drop]

theorem ne_nil (h : Pages size l pages) : pages ≠ [] := by
  cases h with
  | last _ => simp
  | full _ _ => simp

theorem length_of_mem_dropLast (h : Pages size l pages) :
    ∀ page ∈ pages.dropLast, page.length = size := by
  induction h with
  | last _ => simp
  | full hle hrest ih =>
    intro page hpage
    rw [List.dropLast_cons_of_ne_nil hrest.ne_nil] at hpage
    obtain rfl | hpage := List.mem_cons.mp hpage
    · rw [List.length_take, min_eq_left hle]
    · exact ih page hpage

theorem exists_getLast (h : Pages size l pages) :
    ∃ page, pages.getLast? = some page ∧ page.length < size := by
  induction h with
  | last hlt => exact ⟨_, rfl, hlt⟩
  | full _ hrest ih =>
    obtain ⟨page, hpage, hlt⟩ := ih
    exact ⟨page, by rw [List.getLast?_cons, hpage, Option.getD_some], hlt⟩

end Pages

end Swat4Stats
