import Swat4Stats.Library.Table

/-!
# Tables with a unique constraint

A table whose rows also differ in the columns of a unique constraint, and the statements that
such a constraint is for: the lookup by these columns and the insertion that updates on conflict.
-/

namespace Swat4Stats

set_option autoImplicit false

universe u v

structure UniqueTable (α : Type u) {κ : Type v} (pk : α → ℕ) (key : α → κ) extends
    Table α pk where
  nodupKeys : (rows.map key).Nodup

namespace UniqueTable

variable {α : Type u} {κ : Type v} {pk : α → ℕ} {key : α → κ}

def empty : UniqueTable α pk key := ⟨Table.empty, List.nodup_nil⟩

/-- The same rows as a table whose key are the columns of the constraint. -/
def byKey (t : UniqueTable α pk key) : Table α key := ⟨t.rows, t.nodupKeys⟩

@[ext] theorem ext {t u : UniqueTable α pk key} (h : t.rows = u.rows) : t = u := by
  obtain ⟨t, ht⟩ := t
  obtain ⟨u, hu⟩ := u
  obtain rfl : t = u := Table.ext h
  rfl

theorem eq_of_key_eq (t : UniqueTable α pk key) {x y : α} (hx : x ∈ t.rows) (hy : y ∈ t.rows)
    (h : key x = key y) : x = y :=
  t.byKey.eq_of_key_eq hx hy h

section Lookup

variable [DecidableEq κ]

def get? (t : UniqueTable α pk key) (k : κ) : Option α := t.byKey.find? k

theorem get?_eq_some_iff {t : UniqueTable α pk key} {k : κ} {x : α} :
    t.get? k = some x ↔ x ∈ t.rows ∧ key x = k :=
  Table.find?_eq_some_iff

theorem get?_eq_none_iff {t : UniqueTable α pk key} {k : κ} :
    t.get? k = none ↔ ∀ x ∈ t.rows, key x ≠ k :=
  Table.find?_eq_none_iff

theorem get?_of_mem {t : UniqueTable α pk key} {x : α} (hx : x ∈ t.rows) :
    t.get? (key x) = some x :=
  Table.find?_of_mem (t := t.byKey) hx

end Lookup

section Update

/-- `UPDATE ... WHERE p` of columns that no constraint is about. -/
def update (t : UniqueTable α pk key) (p : α → Bool) (f : α → α) (hpk : ∀ x, pk (f x) = pk x)
    (hkey : ∀ x, key (f x) = key x) : UniqueTable α pk key where
  toTable := t.toTable.update p f hpk
  nodupKeys := by
    have hkeys : (t.toTable.update p f hpk).rows.map key = t.rows.map key := by
      rw [Table.rows_update, List.map_map]
      apply List.map_congr_left
      intro x _
      simp only [Function.comp_apply]
      split
      · exact hkey x
      · rfl
    rw [hkeys]
    exact t.nodupKeys

theorem get?_update [DecidableEq κ] {t : UniqueTable α pk key} {p : α → Bool} {f : α → α}
    {hpk : ∀ x, pk (f x) = pk x} {hkey : ∀ x, key (f x) = key x} (k : κ) :
    (t.update p f hpk hkey).get? k = (t.get? k).map fun x => if p x then f x else x := by
  exact @Table.find?_update α κ key t.byKey p f hkey _ k

end Update

section Delete

/-- `DELETE ... WHERE p`. -/
def delete (t : UniqueTable α pk key) (p : α → Bool) : UniqueTable α pk key where
  toTable := t.toTable.delete p
  nodupKeys := t.nodupKeys.sublist (List.Sublist.map key List.filter_sublist)

theorem get?_delete [DecidableEq κ] {t : UniqueTable α pk key} {p : α → Bool} (k : κ) :
    (t.delete p).get? k = (t.get? k).filter fun x => !p x := by
  cases hget : t.get? k with
  | none =>
    rw [Option.filter_none, get?_eq_none_iff]
    intro x hx
    exact get?_eq_none_iff.mp hget x (Table.mem_delete.mp hx).1
  | some x =>
    obtain ⟨hx, hk⟩ := get?_eq_some_iff.mp hget
    cases hp : p x with
    | false =>
      rw [Option.filter_some_pos (by simp [hp]), get?_eq_some_iff]
      exact ⟨Table.mem_delete.mpr ⟨hx, hp⟩, hk⟩
    | true =>
      rw [Option.filter_some_neg (by simp [hp]), get?_eq_none_iff]
      intro y hy hyk
      obtain ⟨hy, hpy⟩ := Table.mem_delete.mp hy
      rw [t.eq_of_key_eq hy hx (hyk.trans hk.symm), hp] at hpy
      cases hpy

end Delete

section Upsert

variable [DecidableEq κ]

/-- `INSERT ... ON CONFLICT (key) DO UPDATE`: `f` changes the row in the way, and `mk` is the row
that is inserted when there is none. -/
def upsert (t : UniqueTable α pk key) (k : κ) (mk : ℕ → α) (f : α → α) (hmk : ∀ n, pk (mk n) = n)
    (hmkKey : ∀ n, key (mk n) = k) (hpk : ∀ x, pk (f x) = pk x) (hkey : ∀ x, key (f x) = key x) :
    UniqueTable α pk key :=
  if h : t.get? k = none then
    { toTable := t.toTable.create mk hmk
      nodupKeys := by
        rw [Table.rows_create, List.map_append, List.nodup_append]
        refine ⟨t.nodupKeys, by simp, ?_⟩
        intro a ha b hb
        obtain ⟨x, hx, rfl⟩ := List.mem_map.mp ha
        obtain rfl : b = k := by simpa [hmkKey] using hb
        exact get?_eq_none_iff.mp h x hx }
  else
    t.update (fun x => key x = k) f hpk hkey

variable {t : UniqueTable α pk key} {k : κ} {mk : ℕ → α} {f : α → α} {hmk : ∀ n, pk (mk n) = n}
  {hmkKey : ∀ n, key (mk n) = k} {hpk : ∀ x, pk (f x) = pk x} {hkey : ∀ x, key (f x) = key x}

theorem get?_upsert_self :
    (t.upsert k mk f hmk hmkKey hpk hkey).get? k =
      some (match t.get? k with
        | some x => f x
        | none => mk t.nextPk) := by
  rw [upsert]
  split
  · rename_i h
    rw [h]
    refine get?_eq_some_iff.mpr ⟨?_, hmkKey _⟩
    simp
  · rename_i h
    obtain ⟨x, hx⟩ := Option.ne_none_iff_exists'.mp h
    rw [get?_update, hx]
    simp [(get?_eq_some_iff.mp hx).2]

theorem get?_upsert_of_ne {l : κ} (hl : l ≠ k) :
    (t.upsert k mk f hmk hmkKey hpk hkey).get? l = t.get? l := by
  rw [upsert]
  split
  · have hne : ¬ key (mk t.nextPk) = l := fun h => hl (h.symm.trans (hmkKey _))
    simp [get?, byKey, Table.find?, List.find?_append, hne]
  · rw [get?_update]
    cases hget : t.get? l with
    | none => rfl
    | some x => simp [(get?_eq_some_iff.mp hget).2, hl]

end Upsert

end UniqueTable

end Swat4Stats
