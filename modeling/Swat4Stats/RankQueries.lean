import Swat4Stats.Library.OrderedDict
import Swat4Stats.Library.RowNumber
import Swat4Stats.StatsManager

/-!
# The queries of a ranking

`StatsManager.rank` with its keyword arguments, for any of the stats models: the query of the
positions lists the rows in any order, and each category is stored in chunks.
-/

namespace Swat4Stats

set_option autoImplicit false

namespace StatsManager

/-- What a stats model is grouped by. -/
structure StatsModel (γ κ : Type) where
  /-- `grouping_fields`, of the category and the group of a row. -/
  grouping : StatCategory → γ → κ
  /-- Two groups agree on the grouping fields other than `category` and `category_legacy`. -/
  sameExtraFields : γ → γ → Bool

/-- `PlayerStats`, whose rows are grouped by the legacy category alone. -/
def playerStatsModel : StatsModel ℕ ℕ where
  grouping _ categoryLegacy := categoryLegacy
  sameExtraFields _ _ := true

/-- A model that is grouped by the category and one more field. -/
def categoryAnd (γ : Type) [DecidableEq γ] : StatsModel γ (StatCategory × γ) where
  grouping category group := (category, group)
  sameExtraFields group group' := group = group'

def mapStatsModel : StatsModel MapId (StatCategory × MapId) := categoryAnd MapId

def gametypeStatsModel : StatsModel GameType (StatCategory × GameType) := categoryAnd GameType

def serverStatsModel : StatsModel ServerId (StatCategory × ServerId) := categoryAnd ServerId

def StatsModel.groupingFields {γ κ : Type} (model : StatsModel γ κ) (row : Stat γ) : κ :=
  model.grouping row.category row.group

/-- The keyword arguments of `rank`. -/
structure RankArgs (γ : Type) where
  year : ℕ
  cats : Option (List StatCategory) := none
  excludeCats : Option (List StatCategory) := none
  qualify : Option (List (StatCategory × ℚ)) := none
  filters : γ → Bool := fun _ => true

section Rank

variable {γ κ : Type}

/-- An empty list restricts nothing. -/
def RankArgs.targets (args : RankArgs γ) (category : StatCategory) : Bool :=
  match args.cats.getD [], args.excludeCats.getD [] with
  | cat :: cats, _ => category ∈ cat :: cats
  | [], cat :: excludeCats => category ∉ cat :: excludeCats
  | [], [] => true

def RankArgs.conditions (args : RankArgs γ) : List (StatCategory × ℚ) := args.qualify.getD []

def RankArgs.call (model : StatsModel γ κ) (args : RankArgs γ) : RankCall γ where
  year := args.year
  cats := args.targets
  qualify := args.conditions
  filters := args.filters
  refGroup := model.sameExtraFields

/-- The order of the window. -/
def precedes (a b : Stat γ) : Bool := b.points < a.points ∨ a.points = b.points ∧ a.pk < b.pk

def rankedRows (model : StatsModel γ κ) (args : RankArgs γ) (t : StatTable γ) : List (Stat γ) :=
  t.rows.filter (isRanked (args.call model) t)

def windowPosition [DecidableEq κ] (model : StatsModel γ κ) (args : RankArgs γ) (t : StatTable γ)
    (row : Stat γ) : ℕ :=
  RowNumber.rowNumber model.groupingFields precedes (rankedRows model args t) row

/-- The category of each row, with its primary key and position. -/
def positionsQs [DecidableEq κ] (model : StatsModel γ κ) (args : RankArgs γ) (t : StatTable γ) :
    List (StatCategory × ℕ × ℕ) :=
  (rankedRows model args t).map fun row =>
    (row.category, row.pk, windowPosition model args t row)

def iterateList {α : Type} (list : List α) (size : ℕ) : List (List α) :=
  (List.range ((list.length + size - 1) / size)).map fun i => (list.drop (i * size)).take size

def updateChunk (t : StatTable γ) (chunk : List (ℕ × ℕ)) : StatTable γ :=
  let positionFor := OrderedDict.update [] chunk
  t.update (fun row => row.pk ∈ OrderedDict.keys positionFor)
    (fun row => { row with position := OrderedDict.get? positionFor row.pk })
    (fun _ => rfl) (fun _ => rfl)

def clearPosition (row : Stat γ) : Stat γ := { row with position := none }

theorem pk_clearPosition (row : Stat γ) : (clearPosition row).pk = row.pk := rfl

theorem key_clearPosition (row : Stat γ) : (clearPosition row).key = row.key := rfl

/-- The transaction of a category. -/
def updateCategory (args : RankArgs γ) (t : StatTable γ) (category : StatCategory)
    (positions : List (ℕ × ℕ)) : StatTable γ :=
  let cleared :=
    -- clear positions prior to updating when qualifications are specified
    if args.conditions ≠ [] then
      t.update
        (fun row => row.year = args.year ∧ row.category = category ∧ row.position ≠ none)
        clearPosition pk_clearPosition key_clearPosition
    else
      t
  (iterateList positions 1000).foldl updateChunk cleared

def updateCategories (args : RankArgs γ) (t : StatTable γ)
    (items : List (StatCategory × ℕ × ℕ)) : StatTable γ :=
  (OrderedDict.collect items).foldl (fun t entry => updateCategory args t entry.1 entry.2) t

/-- A call of `rank` may turn `t` into `t'`; the query lists its rows in any order. -/
def Reranks [DecidableEq κ] (model : StatsModel γ κ) (args : RankArgs γ) (t t' : StatTable γ) :
    Prop :=
  ∃ items, items.Perm (positionsQs model args t) ∧ t' = updateCategories args t items

def rankInOrder [DecidableEq κ] (model : StatsModel γ κ) (args : RankArgs γ) (t : StatTable γ) :
    StatTable γ :=
  updateCategories args t (positionsQs model args t)

theorem flatten_iterateList {α : Type} (list : List α) {size : ℕ} (hsize : 0 < size) :
    (iterateList list size).flatten = list := by
  have htake : ∀ n, ((List.range n).map fun i => (list.drop (i * size)).take size).flatten =
      list.take (n * size) := by
    intro n
    induction n with
    | zero => simp
    | succ n ih =>
      rw [List.range_succ, List.map_append, List.flatten_append, ih, Nat.succ_mul, List.take_add]
      simp
  have hdiv := Nat.div_add_mod (list.length + size - 1) size
  have hmod := Nat.mod_lt (list.length + size - 1) hsize
  rw [iterateList, htake, Nat.mul_comm]
  apply List.take_of_length_le
  omega

def Stat.withPosition (row : Stat γ) (position : Option ℕ) : Stat γ := { row with position }

theorem rows_updateChunk {chunk : List (ℕ × ℕ)} (hchunk : (OrderedDict.keys chunk).Nodup)
    (t : StatTable γ) :
    (updateChunk t chunk).rows = t.rows.map fun row =>
      Stat.withPosition row ((OrderedDict.get? chunk row.pk).or row.position) := by
  have hdict : OrderedDict.update [] chunk = chunk := OrderedDict.update_of_nodup hchunk
  refine List.map_congr_left fun row _ => ?_
  simp only [hdict, decide_eq_true_eq]
  split
  · rename_i hkey
    obtain ⟨position, hposition⟩ := Option.ne_none_iff_exists'.mp
      (fun hnone => OrderedDict.get?_eq_none_iff.mp hnone hkey)
    rw [hposition]
    rfl
  · rename_i hkey
    rw [OrderedDict.get?_eq_none_iff.mpr hkey]
    rfl

theorem rows_foldl_updateChunk {chunks : List (List (ℕ × ℕ))}
    (hchunks : (OrderedDict.keys chunks.flatten).Nodup) (t : StatTable γ) :
    (chunks.foldl updateChunk t).rows = t.rows.map fun row =>
      Stat.withPosition row ((OrderedDict.get? chunks.flatten row.pk).or row.position) := by
  induction chunks generalizing t with
  | nil => exact (List.map_id _).symm
  | cons chunk chunks ih =>
    rw [List.flatten_cons, OrderedDict.keys, List.map_append, List.nodup_append] at hchunks
    obtain ⟨hchunk, hrest, hdisjoint⟩ := hchunks
    rw [List.foldl_cons, ih hrest, rows_updateChunk hchunk, List.map_map]
    refine List.map_congr_left fun row _ => ?_
    simp only [Function.comp_apply, Stat.withPosition, List.flatten_cons, OrderedDict.get?_append]
    cases hget : OrderedDict.get? chunk row.pk with
    | none => simp
    | some position =>
      -- a primary key of this chunk is in no later one
      have hkey : row.pk ∈ OrderedDict.keys chunk := by
        by_contra hkey
        rw [OrderedDict.get?_eq_none_iff.mpr hkey] at hget
        cases hget
      have hlater : OrderedDict.get? chunks.flatten row.pk = none :=
        OrderedDict.get?_eq_none_iff.mpr fun hlater => hdisjoint _ hkey _ hlater rfl
      simp [hlater]

theorem rows_updateCategory {positions : List (ℕ × ℕ)}
    (hpositions : (OrderedDict.keys positions).Nodup) (args : RankArgs γ) (t : StatTable γ)
    (category : StatCategory) :
    (updateCategory args t category positions).rows = t.rows.map fun row =>
      Stat.withPosition row ((OrderedDict.get? positions row.pk).or
        (if args.conditions ≠ [] ∧ row.year = args.year ∧ row.category = category then none
        else row.position)) := by
  have hflatten := flatten_iterateList positions (by decide : 0 < 1000)
  rw [updateCategory, rows_foldl_updateChunk (hflatten.symm ▸ hpositions), hflatten]
  split
  · rename_i hqualify
    refine (List.map_map ..).trans (List.map_congr_left fun row _ => ?_)
    simp only [Function.comp_apply, decide_eq_true_eq, hqualify, ne_eq, not_false_eq_true, true_and]
    obtain hyear | hyear := Decidable.em (row.year = args.year ∧ row.category = category)
    · cases hposition : row.position with
      | none => simp [hyear, hposition]
      | some position =>
        simp [hyear, Stat.withPosition, clearPosition]
    · have hnot : ¬ (row.year = args.year ∧ row.category = category ∧ ¬ row.position = none) :=
        fun h => hyear ⟨h.1, h.2.1⟩
      rw [if_neg hyear, if_neg hnot]
  · rename_i hqualify
    refine List.map_congr_left fun row _ => ?_
    rw [if_neg fun h => hqualify h.1]

/-- The positions of a category are about rows of that category. -/
def Owned (t : StatTable γ) (entry : StatCategory × List (ℕ × ℕ)) : Prop :=
  ∀ row ∈ t.rows, row.pk ∈ OrderedDict.keys entry.2 → row.category = entry.1

theorem rows_foldl_updateCategory {entries : List (StatCategory × List (ℕ × ℕ))}
    (hentries : (OrderedDict.keys entries).Nodup)
    (hpositions : ∀ entry ∈ entries, (OrderedDict.keys entry.2).Nodup) (args : RankArgs γ)
    {t : StatTable γ} (howned : ∀ entry ∈ entries, Owned t entry) :
    (entries.foldl (fun t entry => updateCategory args t entry.1 entry.2) t).rows =
      t.rows.map fun row => Stat.withPosition row
        (match OrderedDict.get? entries row.category with
        | none => row.position
        | some positions => (OrderedDict.get? positions row.pk).or
          (if args.conditions ≠ [] ∧ row.year = args.year then none else row.position)) := by
  induction entries generalizing t with
  | nil => exact (List.map_id _).symm
  | cons entry entries ih =>
    obtain ⟨category, positions⟩ := entry
    obtain ⟨hfresh, hentries⟩ := List.nodup_cons.mp hentries
    have hstep := rows_updateCategory (hpositions _ List.mem_cons_self) args t category
    have howned' : ∀ entry ∈ entries, Owned (updateCategory args t category positions) entry := by
      intro entry hentry row hrow
      rw [hstep] at hrow
      obtain ⟨old, hold, rfl⟩ := List.mem_map.mp hrow
      exact howned entry (List.mem_cons_of_mem _ hentry) old hold
    rw [List.foldl_cons, ih hentries (fun e he => hpositions e (List.mem_cons_of_mem _ he)) howned',
      hstep, List.map_map]
    refine List.map_congr_left fun row hrow => ?_
    simp only [Function.comp_apply, Stat.withPosition, OrderedDict.get?]
    obtain rfl | hne := eq_or_ne category row.category
    · have hlater : OrderedDict.get? entries row.category = none :=
        OrderedDict.get?_eq_none_iff.mpr hfresh
      simp [hlater]
    · have hkey : row.pk ∉ OrderedDict.keys positions := fun hkey =>
        hne (howned _ List.mem_cons_self row hrow hkey).symm
      simp [hne, hne.symm, OrderedDict.get?_eq_none_iff.mpr hkey]

def newPosition [DecidableEq κ] (model : StatsModel γ κ) (args : RankArgs γ) (t : StatTable γ)
    (row : Stat γ) : Option ℕ :=
  if isRanked (args.call model) t row then some (windowPosition model args t row)
  else if args.conditions ≠ [] ∧ row.year = args.year ∧
      ∃ other ∈ rankedRows model args t, other.category = row.category then none
  else row.position

variable {model : StatsModel γ κ} {args : RankArgs γ} {t t' : StatTable γ} {row : Stat γ}

theorem mem_rankedRows : row ∈ rankedRows model args t ↔
    row ∈ t.rows ∧ isRanked (args.call model) t row = true :=
  List.mem_filter

variable [DecidableEq κ]

theorem nodup_positions {items : List (StatCategory × ℕ × ℕ)}
    (hitems : items.Perm (positionsQs model args t)) (category : StatCategory) :
    (OrderedDict.keys ((items.filter fun item => item.1 = category).map Prod.snd)).Nodup := by
  have hpks : (items.map fun item => item.2.1).Nodup := by
    rw [(hitems.map _).nodup_iff, positionsQs, List.map_map]
    exact t.nodup.sublist (List.filter_sublist.map Stat.pk)
  rw [OrderedDict.keys, List.map_map]
  exact hpks.sublist (List.filter_sublist.map _)

theorem get?_positions {items : List (StatCategory × ℕ × ℕ)}
    (hitems : items.Perm (positionsQs model args t)) (hrow : row ∈ t.rows) :
    OrderedDict.get?
        ((items.filter fun item => item.1 = row.category).map Prod.snd) row.pk =
      if isRanked (args.call model) t row then some (windowPosition model args t row)
      else none := by
  have hperm : ((items.filter fun item => item.1 = row.category).map Prod.snd).Perm
      (((positionsQs model args t).filter fun item => item.1 = row.category).map Prod.snd) :=
    (hitems.filter _).map _
  have hmem : ∀ position, (row.pk, position) ∈
      (items.filter fun item => item.1 = row.category).map Prod.snd ↔
        isRanked (args.call model) t row = true ∧ position = windowPosition model args t row := by
    intro position
    rw [hperm.mem_iff]
    simp only [positionsQs, List.mem_map, List.mem_filter, decide_eq_true_eq]
    constructor
    · rintro ⟨_, ⟨⟨other, hother, rfl⟩, _⟩, hpk⟩
      obtain ⟨hother, hranked⟩ := mem_rankedRows.mp hother
      obtain rfl := t.toTable.eq_of_key_eq hother hrow (Prod.mk.inj hpk).1
      exact ⟨hranked, (Prod.mk.inj hpk).2.symm⟩
    · rintro ⟨hranked, rfl⟩
      exact ⟨_, ⟨⟨row, mem_rankedRows.mpr ⟨hrow, hranked⟩, rfl⟩, rfl⟩, rfl⟩
  split
  · rename_i hranked
    exact OrderedDict.get?_of_mem (nodup_positions hitems _) ((hmem _).mpr ⟨hranked, rfl⟩)
  · rename_i hranked
    rw [OrderedDict.get?_eq_none_iff]
    intro hkey
    obtain ⟨⟨_, position⟩, hentry, rfl⟩ := List.mem_map.mp hkey
    exact hranked ((hmem position).mp hentry).1

theorem owned_of_mem_collect {items : List (StatCategory × ℕ × ℕ)}
    (hitems : items.Perm (positionsQs model args t)) {entry : StatCategory × List (ℕ × ℕ)}
    (hentry : entry ∈ OrderedDict.collect items) : Owned t entry := by
  intro row hrow hkey
  rw [OrderedDict.snd_of_mem_collect hentry] at hkey
  obtain ⟨_, hposition, hpk⟩ := List.mem_map.mp hkey
  obtain ⟨item, hitem, rfl⟩ := List.mem_map.mp hposition
  obtain ⟨hitem, hsame⟩ := List.mem_filter.mp hitem
  obtain ⟨other, hother, rfl⟩ := List.mem_map.mp (hitems.mem_iff.mp hitem)
  obtain rfl := t.toTable.eq_of_key_eq (mem_rankedRows.mp hother).1 hrow hpk
  exact of_decide_eq_true hsame

theorem rows_of_reranks (h : Reranks model args t t') :
    t'.rows = t.rows.map fun row => Stat.withPosition row (newPosition model args t row) := by
  obtain ⟨items, hitems, rfl⟩ := h
  have hcategory : ∀ category, category ∈ items.map Prod.fst ↔
      ∃ other ∈ rankedRows model args t, other.category = category := by
    intro category
    rw [(hitems.map _).mem_iff, positionsQs, List.map_map]
    simp
  rw [updateCategories, rows_foldl_updateCategory (OrderedDict.nodup_keys_collect items)]
  · refine List.map_congr_left fun row hrow => congrArg (Stat.withPosition row) ?_
    rw [OrderedDict.get?_collect, newPosition]
    obtain hnumbered | hnumbered := Decidable.em (row.category ∈ items.map Prod.fst)
    · have hother := (hcategory _).mp hnumbered
      rw [if_pos hnumbered]
      simp only [get?_positions hitems hrow, hother, and_true]
      split
      · rfl
      · rfl
    · have hother : ¬ ∃ other ∈ rankedRows model args t, other.category = row.category :=
        fun hother => hnumbered ((hcategory _).mpr hother)
      have hranked : ¬ isRanked (args.call model) t row = true := fun hranked =>
        hother ⟨row, mem_rankedRows.mpr ⟨hrow, hranked⟩, rfl⟩
      rw [if_neg hnumbered, if_neg hranked]
      exact (if_neg fun hcleared => hother hcleared.2.2).symm
  · intro entry hentry
    rw [OrderedDict.snd_of_mem_collect hentry]
    exact nodup_positions hitems _
  · exact fun entry hentry => owned_of_mem_collect hitems hentry

end Rank

end StatsManager

end Swat4Stats
