import Mathlib.Data.List.Count
import Mathlib.Data.List.Nodup
import Mathlib.Tactic.Common

/-!
# Row numbers

`ROW_NUMBER() OVER (PARTITION BY key ORDER BY ...)`: a row is numbered by the rows of its partition
that come before it. Where the order is strict and total on the rows, the numbers of a partition
are `1..n`, and they are in the order of the rows.
-/

namespace Swat4Stats

set_option autoImplicit false

universe u v

/-- The order is strict, and decides between any two of the rows. -/
structure OrdersRows {α : Type u} (before : α → α → Bool) (rows : List α) : Prop where
  irrefl : ∀ x ∈ rows, before x x = false
  trans : ∀ x ∈ rows, ∀ y ∈ rows, ∀ z ∈ rows, before x y = true → before y z = true →
    before x z = true
  total : ∀ x ∈ rows, ∀ y ∈ rows, x ≠ y → before x y = true ∨ before y x = true

theorem OrdersRows.asymm {α : Type u} {before : α → α → Bool} {rows : List α}
    (h : OrdersRows before rows) {x y : α} (hx : x ∈ rows) (hy : y ∈ rows)
    (hxy : before x y = true) : ¬ before y x = true := by
  intro hyx
  have hself := h.trans x hx y hy x hx hxy hyx
  rw [h.irrefl x hx] at hself
  cases hself

namespace RowNumber

variable {α : Type u} {κ : Type v} [DecidableEq κ]

def partition (key : α → κ) (rows : List α) (k : κ) : List α := rows.filter fun x => key x = k

def rowNumber (key : α → κ) (before : α → α → Bool) (rows : List α) (x : α) : ℕ :=
  (partition key rows (key x)).countP (fun y => before y x) + 1

variable {key : α → κ} {before : α → α → Bool} {rows rows' : List α} {x y : α} {k : κ}

theorem mem_partition : x ∈ partition key rows k ↔ x ∈ rows ∧ key x = k := by
  simp [partition]

theorem rowNumber_perm (h : rows.Perm rows') (x : α) :
    rowNumber key before rows x = rowNumber key before rows' x := by
  rw [rowNumber, rowNumber, partition, partition, (h.filter _).countP_eq]

/-- Whatever leaves the key and the order of the rows alone leaves their numbers alone. -/
theorem rowNumber_map (key : α → κ) (before : α → α → Bool) {f : α → α}
    (hkey : ∀ y, key (f y) = key y) (hbefore : ∀ y z, before (f y) (f z) = before y z)
    (rows : List α) (x : α) :
    rowNumber key before (rows.map f) (f x) = rowNumber key before rows x := by
  simp only [rowNumber, partition, List.filter_map, List.countP_map, Function.comp_def, hkey,
    hbefore]

theorem countP_lt_countP {p q : α → Bool} {l : List α} (hpq : ∀ x ∈ l, p x = true → q x = true)
    (hx : x ∈ l) (hp : p x = false) (hq : q x = true) : l.countP p < l.countP q := by
  have hcount : l.countP p = (l.filter q).countP p := by
    rw [List.countP_filter]
    apply List.countP_congr
    intro y hy
    constructor
    · intro hpy
      simp [hpy, hpq y hy hpy]
    · intro hpqy
      exact (Bool.and_eq_true_iff.mp hpqy).1
  rw [hcount, List.countP_eq_length_filter (p := q), List.countP_lt_length_iff]
  exact ⟨x, List.mem_filter.mpr ⟨hx, hq⟩, by simp [hp]⟩

theorem rowNumber_le (horder : OrdersRows before rows) (hx : x ∈ rows) :
    rowNumber key before rows x ≤ (partition key rows (key x)).length := by
  have hlt : (partition key rows (key x)).countP (fun y => before y x) <
      (partition key rows (key x)).length := by
    rw [List.countP_lt_length_iff]
    exact ⟨x, mem_partition.mpr ⟨hx, rfl⟩, by simp [horder.irrefl x hx]⟩
  rw [rowNumber]
  omega

/-- What comes before `x` comes before `y`, and so does `x` itself. -/
theorem rowNumber_lt (horder : OrdersRows before rows) (hx : x ∈ rows) (hy : y ∈ rows)
    (hkey : key x = key y) (hbefore : before x y = true) :
    rowNumber key before rows x < rowNumber key before rows y := by
  have hmem : ∀ z ∈ partition key rows (key y), z ∈ rows := fun z hz => (mem_partition.mp hz).1
  have hlt : (partition key rows (key y)).countP (fun z => before z x) <
      (partition key rows (key y)).countP (fun z => before z y) := by
    apply countP_lt_countP (x := x)
    · intro z hz hzx
      exact horder.trans z (hmem z hz) x hx y hy hzx hbefore
    · exact mem_partition.mpr ⟨hx, hkey⟩
    · exact horder.irrefl x hx
    · exact hbefore
  rw [rowNumber, rowNumber, hkey]
  omega

theorem rowNumber_lt_iff (horder : OrdersRows before rows) (hx : x ∈ rows) (hy : y ∈ rows)
    (hkey : key x = key y) :
    rowNumber key before rows x < rowNumber key before rows y ↔ before x y = true := by
  constructor
  · intro hlt
    obtain rfl | hne := Classical.em (x = y)
    · omega
    · obtain hxy | hyx := horder.total x hx y hy hne
      · exact hxy
      · have hgt := rowNumber_lt horder hy hx hkey.symm hyx
        omega
  · exact rowNumber_lt horder hx hy hkey

theorem rowNumber_inj (horder : OrdersRows before rows) (hx : x ∈ rows) (hy : y ∈ rows)
    (hkey : key x = key y) (h : rowNumber key before rows x = rowNumber key before rows y) :
    x = y := by
  by_contra hne
  obtain hxy | hyx := horder.total x hx y hy hne
  · have hlt := rowNumber_lt horder hx hy hkey hxy
    omega
  · have hlt := rowNumber_lt horder hy hx hkey.symm hyx
    omega

/-- A partition of `n` rows has the numbers `1..n`, each once. -/
theorem perm_range' (key : α → κ) (horder : OrdersRows before rows) (hnodup : rows.Nodup)
    (k : κ) :
    ((partition key rows k).map (rowNumber key before rows)).Perm
      (List.range' 1 (partition key rows k).length) := by
  have hnumbers : ((partition key rows k).map (rowNumber key before rows)).Nodup := by
    apply List.Nodup.map_on _ (hnodup.filter _)
    intro x hx y hy h
    obtain ⟨hx, hkeyX⟩ := mem_partition.mp hx
    obtain ⟨hy, hkeyY⟩ := mem_partition.mp hy
    exact rowNumber_inj horder hx hy (hkeyX.trans hkeyY.symm) h
  apply (List.subperm_of_subset hnumbers ?_).perm_of_length_le
  · simp
  · intro number hnumber
    obtain ⟨x, hx, rfl⟩ := List.mem_map.mp hnumber
    obtain ⟨hmem, hkey⟩ := mem_partition.mp hx
    have hle : rowNumber key before rows x ≤ (partition key rows (key x)).length :=
      rowNumber_le horder hmem
    rw [hkey] at hle
    rw [List.mem_range'_1]
    have hpos : 1 ≤ rowNumber key before rows x := Nat.le_add_left ..
    omega

/-- In a list that is in order, the rows are numbered by their places. -/
theorem rowNumber_of_pairwise (horder : OrdersRows before rows)
    (hsorted : rows.Pairwise fun x y => before x y = true) {i : ℕ} (hi : i < rows.length) :
    rowNumber (fun _ => ()) before rows rows[i] = i + 1 := by
  have hpart : partition (fun _ => ()) rows () = rows := by
    simp [partition]
  have hsplit : rows = rows.take i ++ rows[i] :: rows.drop (i + 1) := by
    rw [← List.drop_eq_getElem_cons hi, List.take_append_drop]
  have hget : rows[i] ∈ rows := List.getElem_mem hi
  rw [hsplit, List.pairwise_append] at hsorted
  obtain ⟨_, hrest, hcross⟩ := hsorted
  have hfirst : (rows.take i).countP (fun y => before y rows[i]) = i := by
    have hall : (rows.take i).countP (fun y => before y rows[i]) = (rows.take i).length := by
      rw [List.countP_eq_length]
      exact fun y hy => hcross y hy _ List.mem_cons_self
    rw [hall, List.length_take]
    omega
  have hlast : (rows[i] :: rows.drop (i + 1)).countP (fun y => before y rows[i]) = 0 := by
    rw [List.countP_eq_zero]
    intro y hy
    obtain rfl | hy := List.mem_cons.mp hy
    · simp [horder.irrefl _ hget]
    · exact horder.asymm hget (List.mem_of_mem_drop hy) ((List.pairwise_cons.mp hrest).1 y hy)
  have hcount : rows.countP (fun y => before y rows[i]) = i := by
    calc
      rows.countP (fun y => before y rows[i]) =
          (rows.take i ++ rows[i] :: rows.drop (i + 1)).countP (fun y => before y rows[i]) :=
        congrArg (List.countP fun y => before y rows[i]) hsplit
      _ = i := by rw [List.countP_append, hfirst, hlast, Nat.add_zero]
  rw [rowNumber, hpart, hcount]

end RowNumber

end Swat4Stats
