import Swat4Stats.Library.Keyset

/-!
# Cursors of a backfill

A backfill reads the rows that still want a value page by page, and writes what it has read. Others
write to the table at the same time. What the cursor has passed wants nothing any more, for as long
as nobody adds a row behind it that does.
-/

namespace Swat4Stats

set_option autoImplicit false

universe u

/-- Before the page that comes after a key, at a page, or past the last one. -/
inductive Cursor where
  | after (lastKey : ℕ)
  | page (keys : List ℕ)
  | finished
  deriving DecidableEq, Repr

namespace Cursor

variable {α : Type u} {key : α → ℕ}

def read (size : ℕ) (wants : α → Bool) (t : Table α key) (lastKey : ℕ) : Cursor :=
  .page (((t.after wants lastKey).take size).map key)

/-- A short page is the last one. -/
def advance (size : ℕ) (keys : List ℕ) : Cursor :=
  if keys.length < size then
    .finished
  else
    match keys.getLast? with
    | some lastKey => .after lastKey
    | none => .finished

theorem advance_ne_page (size : ℕ) (keys keys' : List ℕ) : advance size keys ≠ .page keys' := by
  rw [advance]
  split
  · exact Cursor.noConfusion
  · split
    · exact Cursor.noConfusion
    · exact Cursor.noConfusion

/-- A row that wants a value is still to come. -/
def Covers (size : ℕ) (wants : α → Bool) (t : Table α key) : Cursor → Prop
  | .after lastKey => ∀ x ∈ t.rows, wants x = true → lastKey < key x
  | .page keys => ∀ x ∈ t.rows, wants x = true →
      key x ∈ keys ∨ size ≤ keys.length ∧ ∀ lastKey ∈ keys.getLast?, lastKey < key x
  | .finished => ∀ x ∈ t.rows, wants x = false

section Covers

variable {size : ℕ} {wants : α → Bool} {t u : Table α key} {cursor : Cursor} {lastKey : ℕ}
  {keys : List ℕ}

/-- Whatever others do, if no row wants a value that has not wanted one. -/
theorem Covers.mono (h : Covers size wants t cursor) (hwants : ∀ y ∈ u.rows, wants y = true →
    ∃ x ∈ t.rows, wants x = true ∧ key x = key y) : Covers size wants u cursor := by
  cases cursor with
  | after lastKey =>
    intro y hy hwant
    obtain ⟨x, hx, hwant, hkey⟩ := hwants y hy hwant
    exact hkey ▸ h x hx hwant
  | page keys =>
    intro y hy hwant
    obtain ⟨x, hx, hwant, hkey⟩ := hwants y hy hwant
    exact hkey ▸ h x hx hwant
  | finished =>
    intro y hy
    by_contra hwant
    obtain ⟨x, hx, hwant, _⟩ := hwants y hy (by simpa using hwant)
    rw [h x hx] at hwant
    cases hwant

theorem covers_read (h : Covers size wants t (.after lastKey)) :
    Covers size wants t (read size wants t lastKey) := by
  intro x hx hwant
  have hafter : x ∈ t.after wants lastKey := Table.mem_after.mpr ⟨hx, hwant, h x hx hwant⟩
  have hsorted : (t.after wants lastKey).Pairwise fun x y => key x < key y :=
    Table.pairwise_after
  rw [← List.take_append_drop size (t.after wants lastKey)] at hafter hsorted
  obtain htake | hdrop := List.mem_append.mp hafter
  · exact .inl (List.mem_map_of_mem htake)
  · right
    constructor
    · have hlt : size < (t.after wants lastKey).length := by
        have hpos := List.length_pos_of_mem hdrop
        rw [List.length_drop] at hpos
        omega
      rw [List.length_map, List.length_take, min_eq_left hlt.le]
    · intro last hlast
      rw [Option.mem_def, List.getLast?_map, Option.map_eq_some_iff] at hlast
      obtain ⟨y, hy, rfl⟩ := hlast
      exact (List.pairwise_append.mp hsorted).2.2 y (List.mem_of_getLast? hy) x hdrop

/-- When the rows of the page have been written. -/
theorem covers_advance (hsize : 1 ≤ size) (h : Covers size wants t (.page keys))
    (hwritten : ∀ x ∈ t.rows, wants x = true → key x ∉ keys) :
    Covers size wants t (advance size keys) := by
  rw [advance]
  split
  · rename_i hlt
    intro x hx
    by_contra hwant
    have hwant : wants x = true := by simpa using hwant
    obtain hmem | ⟨hle, _⟩ := h x hx hwant
    · exact hwritten x hx hwant hmem
    · omega
  · rename_i hle
    split
    · rename_i lastKey hlast
      intro x hx hwant
      obtain hmem | ⟨_, hlt⟩ := h x hx hwant
      · exact absurd hmem (hwritten x hx hwant)
      · exact hlt lastKey hlast
    · rename_i hnone
      rw [List.getLast?_eq_none_iff.mp hnone, List.length_nil] at hle
      omega

end Covers

section Progress

variable {size : ℕ} {wants : α → Bool} {t u : Table α key} {lastKey : ℕ}

/-- The next page begins where this one ends, so fewer rows are left after it. -/
theorem length_after_lt {next : ℕ}
    (h : advance size (((t.after wants lastKey).take size).map key) = .after next)
    (hwants : ∀ y ∈ u.rows, wants y = true → ∃ x ∈ t.rows, wants x = true ∧ key x = key y) :
    (u.after wants next).length < (t.after wants lastKey).length := by
  obtain ⟨last, hlast, rfl⟩ : ∃ last ∈ t.after wants lastKey, key last = next := by
    rw [advance] at h
    split at h
    · cases h
    · split at h
      · rename_i hlast
        cases h
        rw [List.getLast?_map, Option.map_eq_some_iff] at hlast
        obtain ⟨last, hlast, rfl⟩ := hlast
        exact ⟨last, List.mem_of_mem_take (List.mem_of_getLast? hlast), rfl⟩
      · cases h
  have hnodup : ∀ (v : Table α key) (k : ℕ), ((v.after wants k).map key).Nodup := fun v k =>
    List.pairwise_map.mpr (Table.pairwise_after.imp fun hlt => hlt.ne)
  have hnew : (key last :: (u.after wants (key last)).map key).Nodup := by
    refine List.nodup_cons.mpr ⟨fun hmem => ?_, hnodup u (key last)⟩
    obtain ⟨y, hy, hkey⟩ := List.mem_map.mp hmem
    exact (Table.mem_after.mp hy).2.2.ne' hkey
  have hsubset : key last :: (u.after wants (key last)).map key ⊆
      (t.after wants lastKey).map key := by
    refine List.cons_subset.mpr ⟨List.mem_map_of_mem hlast, fun k hk => ?_⟩
    obtain ⟨y, hy, rfl⟩ := List.mem_map.mp hk
    obtain ⟨hrow, hwant, hlt⟩ := Table.mem_after.mp hy
    obtain ⟨x, hx, hwantx, hkey⟩ := hwants y hrow hwant
    have hbefore := (Table.mem_after.mp hlast).2.2
    rw [← hkey] at hlt ⊢
    exact List.mem_map_of_mem (Table.mem_after.mpr ⟨hx, hwantx, hbefore.trans hlt⟩)
  have hle := (List.subperm_of_subset hnew hsubset).length_le
  simp only [List.length_cons, List.length_map] at hle
  exact hle

end Progress

end Cursor

end Swat4Stats
