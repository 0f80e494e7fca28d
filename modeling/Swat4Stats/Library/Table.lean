import Mathlib.Data.List.Forall2
import Mathlib.Data.List.Nodup
import Mathlib.Data.List.MinMax
import Mathlib.Algebra.Order.Monoid.Canonical.Defs

/-!
# Keyed tables

A table is a list of rows without two rows of one key, as a primary key keeps it. The order of
the rows is the order of insertion; an update keeps every row in its place.
-/

namespace Swat4Stats

set_option autoImplicit false

universe u v

structure Table (α : Type u) {κ : Type v} (key : α → κ) where
  rows : List α
  nodup : (rows.map key).Nodup

namespace Table

variable {α : Type u} {κ : Type v} {key : α → κ}

@[ext] theorem ext {t u : Table α key} (h : t.rows = u.rows) : t = u := by
  cases t
  cases u
  cases h
  rfl

def empty : Table α key := ⟨[], List.nodup_nil⟩

@[simp] theorem rows_empty : (empty : Table α key).rows = [] := rfl

theorem eq_of_key_eq (t : Table α key) {x y : α} (hx : x ∈ t.rows) (hy : y ∈ t.rows)
    (h : key x = key y) : x = y :=
  List.inj_on_of_nodup_map t.nodup hx hy h

section Lookup

variable [DecidableEq κ]

def find? (t : Table α key) (k : κ) : Option α := t.rows.find? fun x => key x = k

theorem find?_eq_some_iff {t : Table α key} {k : κ} {x : α} :
    t.find? k = some x ↔ x ∈ t.rows ∧ key x = k := by
  constructor
  · intro h
    exact ⟨List.mem_of_find?_eq_some h, by simpa using List.find?_some h⟩
  · rintro ⟨hx, rfl⟩
    cases hfind : t.find? (key x) with
    | none =>
      have hnone := List.find?_eq_none.mp hfind x hx
      simp at hnone
    | some y =>
      have hkey : key y = key x := by simpa using List.find?_some hfind
      rw [t.eq_of_key_eq (List.mem_of_find?_eq_some hfind) hx hkey]

theorem find?_eq_none_iff {t : Table α key} {k : κ} :
    t.find? k = none ↔ ∀ x ∈ t.rows, key x ≠ k := by
  simp [find?, List.find?_eq_none]

theorem find?_of_mem {t : Table α key} {x : α} (hx : x ∈ t.rows) : t.find? (key x) = some x :=
  find?_eq_some_iff.mpr ⟨hx, rfl⟩

end Lookup

section AnyRow

/-- One of the rows of a query that has no order; which one is up to the database. -/
def anyRow (pick : ℕ) (rows : List α) : Option α := rows[pick % rows.length]?

theorem anyRow_mem {pick : ℕ} {rows : List α} {x : α} (h : anyRow pick rows = some x) :
    x ∈ rows :=
  List.mem_of_getElem? h

theorem anyRow_eq_none_iff {pick : ℕ} {rows : List α} : anyRow pick rows = none ↔ rows = [] := by
  rw [anyRow, List.getElem?_eq_none_iff]
  constructor
  · intro h
    by_contra hne
    have hpos : 0 < rows.length := List.length_pos_iff.mpr hne
    have hlt := Nat.mod_lt pick hpos
    omega
  · rintro rfl
    simp

end AnyRow

theorem filter_eq_nil_or_singleton (t : Table α key) {p : α → Bool}
    (h : ∀ x ∈ t.rows, ∀ y ∈ t.rows, p x = true → p y = true → x = y) :
    t.rows.filter p = [] ∨ ∃ x, t.rows.filter p = [x] := by
  have hnodup : (t.rows.filter p).Nodup := (t.nodup.of_map key).filter p
  cases hrows : t.rows.filter p with
  | nil => exact .inl rfl
  | cons x rest =>
    right
    refine ⟨x, ?_⟩
    cases rest with
    | nil => rfl
    | cons y rest =>
      rw [hrows] at hnodup
      have hx : x ∈ t.rows.filter p := by simp [hrows]
      have hy : y ∈ t.rows.filter p := by simp [hrows]
      obtain ⟨hx, hpx⟩ := List.mem_filter.mp hx
      obtain ⟨hy, hpy⟩ := List.mem_filter.mp hy
      obtain rfl := h x hx y hy hpx hpy
      simp at hnodup

section Update

/-- `UPDATE ... WHERE p`: the key is not among the columns that `f` writes. -/
def update (t : Table α key) (p : α → Bool) (f : α → α) (hf : ∀ x, key (f x) = key x) :
    Table α key where
  rows := t.rows.map fun x => if p x then f x else x
  nodup := by
    have hkeys : (t.rows.map fun x => if p x then f x else x).map key = t.rows.map key := by
      rw [List.map_map]
      apply List.map_congr_left
      intro x _
      simp only [Function.comp_apply]
      split
      · exact hf x
      · rfl
    rw [hkeys]
    exact t.nodup

variable {t : Table α key} {p : α → Bool} {f : α → α} {hf : ∀ x, key (f x) = key x}

@[simp] theorem rows_update :
    (t.update p f hf).rows = t.rows.map fun x => if p x then f x else x := rfl

theorem mem_update {y : α} :
    y ∈ (t.update p f hf).rows ↔ ∃ x ∈ t.rows, (if p x then f x else x) = y := by
  simp

theorem forall_mem_update (hf : ∀ x, key (f x) = key x) {P : α → Prop} (hrows : ∀ x ∈ t.rows, P x)
    (hstep : ∀ x, P x → P (f x)) : ∀ y ∈ (t.update p f hf).rows, P y := by
  intro y hy
  obtain ⟨x, hx, rfl⟩ := mem_update.mp hy
  split
  · exact hstep x (hrows x hx)
  · exact hrows x hx

theorem exists_mem_update (hf : ∀ x, key (f x) = key x) {k : κ} (h : ∃ x ∈ t.rows, key x = k) :
    ∃ y ∈ (t.update p f hf).rows, key y = k := by
  obtain ⟨x, hx, rfl⟩ := h
  refine ⟨_, mem_update.mpr ⟨x, hx, rfl⟩, ?_⟩
  split
  · exact hf x
  · rfl

theorem find?_of_rows_eq_map [DecidableEq κ] {u : Table α key} {g : α → α}
    (hrows : u.rows = t.rows.map g) (hg : ∀ x, key (g x) = key x) (k : κ) :
    u.find? k = (t.find? k).map g := by
  have hkeys : (fun x => decide (key x = k)) ∘ g = fun x => decide (key x = k) := by
    funext x
    rw [Function.comp_apply, hg]
  rw [find?, find?, hrows, List.find?_map, hkeys]

theorem find?_update [DecidableEq κ] (k : κ) :
    (t.update p f hf).find? k = (t.find? k).map fun x => if p x then f x else x := by
  refine find?_of_rows_eq_map rows_update (fun x => ?_) k
  split
  · exact hf x
  · rfl

theorem rows_update_update {g : α → α} {hg : ∀ x, key (g x) = key x}
    (hp : ∀ x, p x = true → p (f x) = true) :
    ((t.update p f hf).update p g hg).rows = t.rows.map fun x => if p x then g (f x) else x := by
  rw [rows_update, rows_update, List.map_map]
  refine List.map_congr_left fun x _ => ?_
  simp only [Function.comp_apply]
  obtain hx | hx := Bool.eq_false_or_eq_true (p x)
  · rw [if_pos hx, if_pos hx, if_pos (hp x hx)]
  · have hx : ¬ p x = true := by simp [hx]
    rw [if_neg hx, if_neg hx, if_neg hx]

theorem update_of_forall_not (h : ∀ x ∈ t.rows, p x = false) : t.update p f hf = t := by
  apply ext
  rw [rows_update]
  calc
    t.rows.map (fun x => if p x then f x else x) = t.rows.map id :=
      List.map_congr_left fun x hx => by simp [h x hx]
    _ = t.rows := List.map_id _

end Update

section Delete

/-- `DELETE ... WHERE p`. -/
def delete (t : Table α key) (p : α → Bool) : Table α key where
  rows := t.rows.filter fun x => !p x
  nodup := (t.nodup).sublist (List.Sublist.map key List.filter_sublist)

@[simp] theorem mem_delete {t : Table α key} {p : α → Bool} {x : α} :
    x ∈ (t.delete p).rows ↔ x ∈ t.rows ∧ p x = false := by
  simp [delete]

end Delete

section Create

variable {key : α → ℕ}

/-- The next value of the sequence behind an integer primary key: larger than every key in use. -/
def nextPk (t : Table α key) : ℕ := (t.rows.map key).foldr max 0 + 1

theorem le_foldr_max {l : List ℕ} {n : ℕ} (h : n ∈ l) : n ≤ l.foldr max 0 := by
  induction l with
  | nil => cases h
  | cons m l ih =>
    rcases List.mem_cons.mp h with rfl | h
    · exact le_max_left _ _
    · exact (ih h).trans (le_max_right _ _)

theorem lt_nextPk (t : Table α key) {x : α} (hx : x ∈ t.rows) : key x < t.nextPk :=
  Nat.lt_succ_of_le (le_foldr_max (List.mem_map_of_mem hx))

/-- `INSERT` of one row whose primary key is taken from the sequence. -/
def create (t : Table α key) (mk : ℕ → α) (hmk : ∀ n, key (mk n) = n) : Table α key where
  rows := t.rows ++ [mk t.nextPk]
  nodup := by
    rw [List.map_append, List.nodup_append]
    refine ⟨t.nodup, by simp, ?_⟩
    intro k hk l hl
    obtain ⟨x, hx, rfl⟩ := List.mem_map.mp hk
    obtain rfl : l = t.nextPk := by simpa [hmk] using hl
    exact (t.lt_nextPk hx).ne

variable {t : Table α key} {mk : ℕ → α} {hmk : ∀ n, key (mk n) = n}

@[simp] theorem rows_create : (t.create mk hmk).rows = t.rows ++ [mk t.nextPk] := rfl

theorem mem_create {x : α} : x ∈ (t.create mk hmk).rows ↔ x ∈ t.rows ∨ x = mk t.nextPk := by
  simp

theorem forall_mem_create {P : α → Prop} (hrows : ∀ x ∈ t.rows, P x) (hnew : ∀ n, P (mk n)) :
    ∀ x ∈ (t.create mk hmk).rows, P x := by
  intro x hx
  obtain hx | rfl := mem_create.mp hx
  · exact hrows x hx
  · exact hnew _

/-- A row that differs from the ones there in some columns leaves these unique. -/
theorem inj_create {β : Type*} {f : α → β}
    (hrows : ∀ x ∈ t.rows, ∀ y ∈ t.rows, f x = f y → x = y)
    (hnew : ∀ x ∈ t.rows, f x ≠ f (mk t.nextPk)) :
    ∀ x ∈ (t.create mk hmk).rows, ∀ y ∈ (t.create mk hmk).rows, f x = f y → x = y := by
  intro x hx y hy h
  obtain hx | rfl := mem_create.mp hx
  · obtain hy | rfl := mem_create.mp hy
    · exact hrows x hx y hy h
    · exact absurd h (hnew x hx)
  · obtain hy | rfl := mem_create.mp hy
    · exact absurd h.symm (hnew y hy)
    · rfl

end Create

section Insert

variable [DecidableEq κ]

/-- `INSERT` of one row with its key, which a row that is there already turns down. -/
def insert (t : Table α key) (x : α) : Table α key :=
  if h : ∀ y ∈ t.rows, key y ≠ key x then
    { rows := t.rows ++ [x]
      nodup := by
        rw [List.map_append, List.nodup_append]
        refine ⟨t.nodup, List.nodup_singleton _, ?_⟩
        intro k hk l hl
        obtain ⟨y, hy, rfl⟩ := List.mem_map.mp hk
        obtain rfl : l = key x := by simpa using hl
        exact h y hy }
  else
    t

theorem rows_insert {t : Table α key} {x : α} (h : ∀ y ∈ t.rows, key y ≠ key x) :
    (t.insert x).rows = t.rows ++ [x] := by
  rw [insert, dif_pos h]

end Insert

section CreateAll

variable {key : α → ℕ} {setPk : α → ℕ → α}

/-- `bulk_create`: the rows get the next primary keys in their order. -/
def createAll (t : Table α key) (setPk : α → ℕ → α) (hset : ∀ x n, key (setPk x n) = n)
    (rows : List α) : Table α key :=
  rows.foldl (fun t x => t.create (setPk x) (hset x)) t

theorem rows_createAll (hset : ∀ x n, key (setPk x n) = n) (t : Table α key) (rows : List α) :
    ∃ created, (t.createAll setPk hset rows).rows = t.rows ++ created ∧
      List.Forall₂ (fun row x => ∃ n, row = setPk x n) created rows := by
  induction rows generalizing t with
  | nil => exact ⟨[], by simp [createAll], .nil⟩
  | cons x rows ih =>
    obtain ⟨created, hrows, hcreated⟩ := ih (t.create (setPk x) (hset x))
    refine ⟨setPk x t.nextPk :: created, ?_, .cons ⟨_, rfl⟩ hcreated⟩
    rw [createAll, List.foldl_cons]
    apply hrows.trans
    rw [rows_create, List.append_assoc, List.singleton_append]

theorem forall_mem_createAll {hset : ∀ x n, key (setPk x n) = n} {t : Table α key}
    {rows : List α} {P : α → Prop} (hrows : ∀ x ∈ t.rows, P x)
    (hnew : ∀ x ∈ rows, ∀ n, P (setPk x n)) : ∀ x ∈ (t.createAll setPk hset rows).rows, P x := by
  induction rows generalizing t with
  | nil => exact hrows
  | cons x rows ih =>
    rw [createAll, List.foldl_cons]
    refine ih (t := t.create (setPk x) (hset x)) ?_ fun y hy => hnew y (List.mem_cons_of_mem _ hy)
    exact forall_mem_create hrows (hnew x List.mem_cons_self)

end CreateAll

end Table

end Swat4Stats
