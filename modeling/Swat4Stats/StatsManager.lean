import Swat4Stats.Aggregates
import Mathlib.Data.List.Perm.Basic

/-!
# Annual stats

`StatsManager` and the updates of `ProfileManager` that write through it. Every update overwrites
the points of the categories that it stores and passes over those without positive points.
-/

namespace Swat4Stats

set_option autoImplicit false

open Tx PlayerQuerySet

namespace StatsManager

variable {γ : Type} [DecidableEq γ]

def upsertPoints (key : StatKey γ) (points : ℚ) (t : StatTable γ) : StatTable γ :=
  t.upsert key
    (fun pk => ⟨pk, key.category, key.year, key.profile, key.group, points, none⟩)
    (fun row => { row with points }) (fun _ => rfl) (fun _ => rfl) (fun _ => rfl) (fun _ => rfl)

/-- `group` is what the table groups by besides the category. -/
def saveItem (profile : ProfileId) (year : ℕ) (group : StatCategory → γ) (t : StatTable γ)
    (item : StatCategory × Option ℚ) : StatTable γ :=
  match item.2 with
  | some points =>
    -- skip zero or negative points
    if points ≤ 0 then t else upsertPoints ⟨year, item.1, profile, group item.1⟩ points t
  | none => t

def saveStats (items : Items) (profile : ProfileId) (year : ℕ) (group : StatCategory → γ)
    (t : StatTable γ) : StatTable γ :=
  items.foldl (saveItem profile year group) t

def saveGroupedStats (groupedItems : List (γ × Items)) (profile : ProfileId) (year : ℕ)
    (t : StatTable γ) : StatTable γ :=
  groupedItems.foldl (fun t entry => saveStats entry.2 profile year (fun _ => entry.1) t) t

/-- The keyword arguments of `rank`; `refGroup` tells which rows of a profile may qualify it. -/
structure RankCall (γ : Type) where
  year : ℕ
  cats : StatCategory → Bool
  qualify : List (StatCategory × ℚ)
  filters : γ → Bool
  refGroup : γ → γ → Bool

def isRanked (call : RankCall γ) (t : StatTable γ) (row : Stat γ) : Bool :=
  row.year = call.year ∧ call.cats row.category ∧ call.filters row.group ∧
    ∀ condition ∈ call.qualify, ∃ ref ∈ t.rows, ref.profile = row.profile ∧
      ref.year = call.year ∧ ref.category = condition.1 ∧ condition.2 ≤ ref.points ∧
      call.refGroup ref.group row.group

/-- The order of the window: by points, the higher ones first, and then by primary key. -/
def isBefore (a b : Stat γ) : Bool :=
  a.category = b.category ∧ a.group = b.group ∧
    (b.points < a.points ∨ a.points = b.points ∧ a.pk < b.pk)

/-- `ROW_NUMBER()`: one more than the number of rows before it. -/
def rowNumber (ranked : List (Stat γ)) (row : Stat γ) : ℕ :=
  ranked.countP (fun other => isBefore other row) + 1

/-- The positions of each category that has any, by primary key. -/
def positionsPerCat (call : RankCall γ) (t : StatTable γ) :
    List (StatCategory × List (ℕ × ℕ)) :=
  let ranked := t.rows.filter (isRanked call t)
  (ranked.map Stat.category).dedup.map fun category =>
    (category, (ranked.filter fun row => row.category = category).map fun row =>
      (row.pk, rowNumber ranked row))

/-- The transaction of one category. -/
def updatePositions (call : RankCall γ) (category : StatCategory) (positions : List (ℕ × ℕ))
    (t : StatTable γ) : StatTable γ :=
  let cleared :=
    -- clear positions prior to updating when qualifications are specified
    if call.qualify ≠ [] then
      t.update (fun row => row.year = call.year ∧ row.category = category)
        (fun row => { row with position := none }) (fun _ => rfl) (fun _ => rfl)
    else
      t
  cleared.update (fun row => row.pk ∈ positions.map Prod.fst)
    (fun row => { row with position := positions.lookup row.pk }) (fun _ => rfl) (fun _ => rfl)

/-- The points of the row with the given unique columns. -/
def points? (t : StatTable γ) (key : StatKey γ) : Option ℚ := (t.get? key).map Stat.points

/-- The value of a category that is worth storing. -/
def positive (items : Items) (category : StatCategory) : Option ℚ :=
  ((items.lookup category).join).filter fun points => 0 < points

theorem points?_upsertPoints (t : StatTable γ) (key k : StatKey γ) (points : ℚ) :
    points? (upsertPoints key points t) k = if k = key then some points else points? t k := by
  obtain rfl | hne := eq_or_ne k key
  · rw [if_pos rfl]
    refine (congrArg (Option.map Stat.points) UniqueTable.get?_upsert_self).trans ?_
    cases t.get? k with
    | none => rfl
    | some row => rfl
  · rw [if_neg hne]
    exact congrArg (Option.map Stat.points) (UniqueTable.get?_upsert_of_ne hne)

theorem points?_saveItem (profile : ProfileId) (year : ℕ) (group : StatCategory → γ)
    (t : StatTable γ) (item : StatCategory × Option ℚ) (key : StatKey γ) :
    points? (saveItem profile year group t item) key =
      if key = ⟨year, item.1, profile, group item.1⟩ then
        (item.2.filter fun points => 0 < points).or (points? t key)
      else
        points? t key := by
  obtain ⟨category, _ | points⟩ := item
  · simp [saveItem]
  · simp only [saveItem]
    split
    · rename_i hpoints
      rw [Option.filter_some_neg (by simpa using hpoints), Option.none_or, ite_self]
    · rename_i hpoints
      rw [points?_upsertPoints, Option.filter_some_pos (by simpa using hpoints), Option.some_or]

theorem positive_cons (item : StatCategory × Option ℚ) (items : Items) (category : StatCategory) :
    positive (item :: items) category =
      if category = item.1 then item.2.filter fun points => 0 < points
      else positive items category := by
  obtain ⟨first, value⟩ := item
  obtain rfl | hne := eq_or_ne category first
  · simp [positive]
  · have hbeq : (category == first) = false := by simpa using hne
    simp [positive, List.lookup_cons, hbeq, hne]

theorem positive_eq_none {items : Items} {category : StatCategory}
    (h : category ∉ items.map Prod.fst) : positive items category = none := by
  have hlookup : items.lookup category = none := by
    rw [List.lookup_eq_none_iff]
    intro item hitem
    have hne : category ≠ item.1 := by
      rintro rfl
      exact h (List.mem_map_of_mem hitem)
    simpa using hne
  simp [positive, hlookup]

theorem points?_saveStats {items : Items} (hnodup : (items.map Prod.fst).Nodup)
    (profile : ProfileId) (year : ℕ) (group : StatCategory → γ) (t : StatTable γ)
    (key : StatKey γ) :
    points? (saveStats items profile year group t) key =
      if key.profile = profile ∧ key.year = year ∧ key.group = group key.category then
        (positive items key.category).or (points? t key)
      else
        points? t key := by
  induction items generalizing t with
  | nil => simp [saveStats, positive]
  | cons item items ih =>
    obtain ⟨hfresh, hnodup⟩ := List.nodup_cons.mp hnodup
    rw [saveStats, List.foldl_cons]
    apply (ih hnodup (saveItem profile year group t item)).trans
    rw [points?_saveItem, positive_cons]
    obtain ⟨keyYear, category, keyProfile, keyGroup⟩ := key
    simp only [StatKey.mk.injEq]
    obtain rfl | hne := eq_or_ne category item.1
    · rw [positive_eq_none hfresh]
      by_cases hkey : keyProfile = profile ∧ keyYear = year ∧ keyGroup = group item.1
      · obtain ⟨rfl, rfl, rfl⟩ := hkey
        simp
      · have hkey' : ¬ (keyYear = year ∧ item.1 = item.1 ∧ keyProfile = profile ∧
            keyGroup = group item.1) := by tauto
        rw [if_neg hkey, if_neg hkey', if_neg hkey]
    · simp [hne]

theorem points?_saveGroupedStats {groupedItems : List (γ × Items)}
    (hgroups : (groupedItems.map Prod.fst).Nodup)
    (hitems : ∀ entry ∈ groupedItems, (entry.2.map Prod.fst).Nodup)
    (profile : ProfileId) (year : ℕ) (t : StatTable γ) (key : StatKey γ) :
    points? (saveGroupedStats groupedItems profile year t) key =
      if key.profile = profile ∧ key.year = year then
        ((groupedItems.lookup key.group).bind fun items => positive items key.category).or
          (points? t key)
      else
        points? t key := by
  induction groupedItems generalizing t with
  | nil => simp [saveGroupedStats]
  | cons entry groupedItems ih =>
    obtain ⟨hfresh, hgroups⟩ := List.nodup_cons.mp hgroups
    rw [saveGroupedStats, List.foldl_cons]
    apply (ih hgroups (fun e he => hitems e (by simp [he])) _).trans
    rw [points?_saveStats (hitems entry (by simp)), List.lookup_cons]
    obtain hgroup | hne := eq_or_ne key.group entry.1
    · have hlookup : groupedItems.lookup key.group = none := by
        rw [List.lookup_eq_none_iff]
        intro e he
        have hne : key.group ≠ e.1 := by
          intro h
          exact hfresh (List.mem_map.mpr ⟨e, he, h.symm.trans hgroup⟩)
        simpa using hne
      rw [hlookup]
      simp [hgroup]
    · have hbeq : (key.group == entry.1) = false := by simpa using hne
      simp [hne, hbeq]

def position? (t : StatTable γ) (key : StatKey γ) : Option ℕ := (t.get? key).bind Stat.position

theorem position?_upsertPoints (t : StatTable γ) (key k : StatKey γ) (points : ℚ) :
    position? (upsertPoints key points t) k = position? t k := by
  obtain rfl | hne := eq_or_ne k key
  · refine (congrArg (Option.bind · Stat.position) UniqueTable.get?_upsert_self).trans ?_
    rw [position?]
    cases t.get? k with
    | none => rfl
    | some row => rfl
  · exact congrArg (Option.bind · Stat.position) (UniqueTable.get?_upsert_of_ne hne)

theorem position?_saveStats (items : Items) (profile : ProfileId) (year : ℕ)
    (group : StatCategory → γ) (t : StatTable γ) (key : StatKey γ) :
    position? (saveStats items profile year group t) key = position? t key := by
  induction items generalizing t with
  | nil => rfl
  | cons item items ih =>
    rw [saveStats, List.foldl_cons]
    apply (ih (saveItem profile year group t item)).trans
    rw [saveItem]
    split
    · split
      · rfl
      · exact position?_upsertPoints _ _ _ _
    · rfl

theorem position?_saveGroupedStats (groupedItems : List (γ × Items)) (profile : ProfileId)
    (year : ℕ) (t : StatTable γ) (key : StatKey γ) :
    position? (saveGroupedStats groupedItems profile year t) key = position? t key := by
  induction groupedItems generalizing t with
  | nil => rfl
  | cons entry groupedItems ih =>
    rw [saveGroupedStats, List.foldl_cons]
    exact (ih _).trans (position?_saveStats _ _ _ _ _ _)

section UpdatePositions

variable (call : RankCall γ) (category : StatCategory) (positions : List (ℕ × ℕ))
  (t : StatTable γ) (key : StatKey γ)

def repositioned (row : Stat γ) : Stat γ :=
  { row with
    position :=
      if row.pk ∈ positions.map Prod.fst then positions.lookup row.pk
      else if call.qualify ≠ [] ∧ row.year = call.year ∧ row.category = category then none
      else row.position }

theorem get?_updatePositions :
    (updatePositions call category positions t).get? key =
      (t.get? key).map (repositioned call category positions) := by
  have hupdate : ∀ (t : StatTable γ) (p : Stat γ → Bool) (f : Stat γ → Option ℕ),
      (t.update p (fun row => { row with position := f row })
          (fun _ => rfl) fun _ => rfl).get? key =
        (t.get? key).map fun row => if p row then { row with position := f row } else row :=
    fun t p f => @UniqueTable.get?_update (Stat γ) (StatKey γ) Stat.pk Stat.key _ t p
      (fun row => { row with position := f row }) (fun _ => rfl) (fun _ => rfl) key
  apply (hupdate _ _ _).trans
  split
  · rename_i hqualify
    apply (congrArg _ (hupdate _ _ _)).trans
    rw [Option.map_map]
    apply congrArg (Option.map · (t.get? key))
    funext row
    simp only [Function.comp_apply, repositioned, hqualify, not_false_eq_true, ne_eq, true_and,
      decide_eq_true_eq]
    split
    · split
      · rfl
      · rfl
    · split
      · rfl
      · rfl
  · rename_i hqualify
    apply congrArg (Option.map · (t.get? key))
    funext row
    simp only [repositioned, hqualify, false_and, if_false, decide_eq_true_eq]
    split
    · rfl
    · rfl

theorem points?_updatePositions :
    points? (updatePositions call category positions t) key = points? t key := by
  rw [points?, get?_updatePositions, Option.map_map]
  rfl

theorem position?_updatePositions :
    position? (updatePositions call category positions t) key =
      (t.get? key).bind fun row => (repositioned call category positions row).position := by
  rw [position?, get?_updatePositions, Option.bind_map]
  rfl

end UpdatePositions

end StatsManager

end Swat4Stats
