import Swat4Stats.RankQueries
import Swat4Stats.Standings

/-!
# Ranking

`StatsManager.rank` as a whole: the positions are read at once, and stored in one transaction for
each category. What a call does to the rows that its filters leave out is settled here, and that
the positions are those of the queries with their chunks.
-/

namespace Swat4Stats

set_option autoImplicit false

namespace StatsManager

variable {γ : Type} [DecidableEq γ]

/-- The transactions of the categories, in the order of `positions_per_cat`. -/
def storePositions (call : RankCall γ) (positions : List (StatCategory × List (ℕ × ℕ)))
    (t : StatTable γ) : StatTable γ :=
  positions.foldl (fun t entry => updatePositions call entry.1 entry.2 t) t

/-- A call of `rank` may leave `t'`: the rows, and so the categories, are read in any order. -/
def Ranks (call : RankCall γ) (t t' : StatTable γ) : Prop :=
  ∃ positions, positions.Perm (positionsPerCat call t) ∧ t' = storePositions call positions t

/-- Calls of `rank` one after the other. -/
inductive RanksAll : List (RankCall γ) → StatTable γ → StatTable γ → Prop
  | nil (t : StatTable γ) : RanksAll [] t t
  | cons {call : RankCall γ} {calls : List (RankCall γ)} {t t' t'' : StatTable γ}
      (hranks : Ranks call t t') (hrest : RanksAll calls t' t'') : RanksAll (call :: calls) t t''

theorem RanksAll.snoc {calls : List (RankCall γ)} {call : RankCall γ} {t t' t'' : StatTable γ}
    (h : RanksAll calls t t') (hranks : Ranks call t' t'') : RanksAll (calls ++ [call]) t t'' := by
  induction h with
  | nil t => exact .cons hranks (.nil _)
  | cons hfirst _ ih => exact .cons hfirst (ih hranks)

/-- The rows read in the order at hand. -/
def rank (t : StatTable γ) (call : RankCall γ) : StatTable γ :=
  storePositions call (positionsPerCat call t) t

theorem ranksAll_foldl (calls : List (RankCall γ)) (t : StatTable γ) :
    RanksAll calls t (calls.foldl rank t) := by
  induction calls generalizing t with
  | nil => exact .nil t
  | cons call calls ih => exact .cons ⟨_, List.Perm.refl _, rfl⟩ (ih _)

section Frame

variable {call : RankCall γ} {t t' : StatTable γ} {key : StatKey γ} {category : StatCategory}
  {positions : List (ℕ × ℕ)}

/-- The row with these unique columns, if any, is given no position. -/
def Spares (t : StatTable γ) (key : StatKey γ) (positions : List (ℕ × ℕ)) : Prop :=
  ∀ row, t.get? key = some row → row.pk ∉ positions.map Prod.fst

theorem spares_of_not_ranked (h : (category, positions) ∈ positionsPerCat call t)
    (hkey : ¬ Ranked (points? t) call key) : Spares t key positions := by
  intro row hget hmem
  obtain ⟨hrow, rfl⟩ := UniqueTable.get?_eq_some_iff.mp hget
  exact hkey (ranked_of_mem_positions h hrow hmem).2

theorem Spares.updatePositions {category' : StatCategory} {positions' : List (ℕ × ℕ)}
    (h : Spares t key positions) :
    Spares (StatsManager.updatePositions call category' positions' t) key positions := by
  intro row hget
  rw [get?_updatePositions] at hget
  obtain ⟨old, hold, rfl⟩ := Option.map_eq_some_iff.mp hget
  exact h old hold

/-- A row that is given no position keeps its own, unless the positions of its year and category
are cleared. -/
theorem position?_updatePositions_of_spares (h : Spares t key positions) :
    position? (updatePositions call category positions t) key =
      if call.qualify ≠ [] ∧ key.year = call.year ∧ key.category = category then none
      else position? t key := by
  rw [position?_updatePositions, position?]
  cases hget : t.get? key with
  | none => simp only [Option.bind_none, ite_self]
  | some row =>
    obtain ⟨_, rfl⟩ := UniqueTable.get?_eq_some_iff.mp hget
    simp only [Option.bind_some, repositioned, if_neg (h row hget)]
    rfl

theorem points?_storePositions (entries : List (StatCategory × List (ℕ × ℕ))) :
    points? (storePositions call entries t) = points? t := by
  induction entries generalizing t with
  | nil => rfl
  | cons entry entries ih =>
    rw [storePositions, List.foldl_cons]
    apply ih.trans
    exact funext fun key => points?_updatePositions _ _ _ _ key

theorem points?_of_ranks (h : Ranks call t t') : points? t' = points? t := by
  obtain ⟨entries, _, rfl⟩ := h
  exact points?_storePositions entries

theorem points?_of_ranksAll {calls : List (RankCall γ)} (h : RanksAll calls t t') :
    points? t' = points? t := by
  induction h with
  | nil t => rfl
  | cons hranks _ ih => exact ih.trans (points?_of_ranks hranks)

theorem position?_storePositions_of_spares {entries : List (StatCategory × List (ℕ × ℕ))}
    (h : ∀ entry ∈ entries, Spares t key entry.2) :
    position? (storePositions call entries t) key =
      if call.qualify ≠ [] ∧ key.year = call.year ∧ key.category ∈ entries.map Prod.fst then none
      else position? t key := by
  induction entries generalizing t with
  | nil => simp [storePositions]
  | cons entry entries ih =>
    rw [storePositions, List.foldl_cons]
    apply (ih fun e he => (h e (List.mem_cons_of_mem _ he)).updatePositions).trans
    rw [position?_updatePositions_of_spares (h entry List.mem_cons_self)]
    simp only [List.map_cons, List.mem_cons]
    obtain hcleared | hcleared := Classical.em (call.qualify ≠ [] ∧ key.year = call.year)
    · by_cases hcat : key.category ∈ entries.map Prod.fst <;>
        by_cases hhead : key.category = entry.1 <;> simp [hcleared, hcat, hhead]
    · have hnot : ∀ p : Prop, ¬ (call.qualify ≠ [] ∧ key.year = call.year ∧ p) :=
        fun p h => hcleared ⟨h.1, h.2.1⟩
      simp only [if_neg (hnot _)]

/-- The position of a row is cleared although the row is not ranked. -/
def Clears (points : StatKey γ → Option ℚ) (call : RankCall γ) (key : StatKey γ) : Prop :=
  call.qualify ≠ [] ∧ key.year = call.year ∧ Numbered points call key.category

open Classical in
theorem position?_of_ranks (h : Ranks call t t') (hkey : ¬ Ranked (points? t) call key) :
    position? t' key = if Clears (points? t) call key then none else position? t key := by
  obtain ⟨entries, hread, rfl⟩ := h
  rw [position?_storePositions_of_spares fun entry hentry =>
    spares_of_not_ranked (hread.mem_iff.mp hentry) hkey]
  have hnumbered : key.category ∈ entries.map Prod.fst ↔
      Numbered (points? t) call key.category := by
    rw [(hread.map Prod.fst).mem_iff, mem_positionsPerCat_fst]
  simp only [hnumbered, Clears]
  congr

open Classical in
/-- A row that no call ranks loses its position to each call that clears it, and to nothing
else. -/
theorem position?_of_ranksAll {calls : List (RankCall γ)} (h : RanksAll calls t t')
    (hkey : ∀ call ∈ calls, ¬ Ranked (points? t) call key) :
    position? t' key =
      if ∃ call ∈ calls, Clears (points? t) call key then none else position? t key := by
  induction h with
  | nil t => simp
  | @cons call calls t t' t'' hranks _ ih =>
    rw [points?_of_ranks hranks] at ih
    rw [ih fun c hc => hkey c (List.mem_cons_of_mem _ hc),
      position?_of_ranks hranks (hkey call List.mem_cons_self)]
    simp only [List.exists_mem_cons_iff]
    obtain hlater | hlater := Classical.em (∃ c ∈ calls, Clears (points? t) c key)
    · rw [if_pos hlater, if_pos (Or.inr hlater)]
    · simp only [if_neg hlater, or_iff_left hlater]

end Frame

section Queries

variable {args : RankArgs γ} {t t' : StatTable γ} {category : StatCategory}
  {positions : List (ℕ × ℕ)} {row : Stat γ}

omit [DecidableEq γ] in
theorem rows_updatePositions (call : RankCall γ) (category : StatCategory)
    (positions : List (ℕ × ℕ)) (t : StatTable γ) :
    (updatePositions call category positions t).rows = t.rows.map fun row =>
      Stat.withPosition row ((OrderedDict.get? positions row.pk).or
        (if call.qualify ≠ [] ∧ row.year = call.year ∧ row.category = category then none
        else row.position)) := by
  have hstore : ∀ (row : Stat γ) (position : Option ℕ),
      (if row.pk ∈ positions.map Prod.fst then
        Stat.withPosition row (positions.lookup row.pk)
      else Stat.withPosition row position) =
        Stat.withPosition row ((OrderedDict.get? positions row.pk).or position) := by
    intro row position
    rw [← OrderedDict.get?_eq_lookup]
    split
    · rename_i hmem
      obtain ⟨number, hnumber⟩ := Option.ne_none_iff_exists'.mp
        (fun hnone => OrderedDict.get?_eq_none_iff.mp hnone hmem)
      rw [hnumber]
      rfl
    · rename_i hmem
      rw [OrderedDict.get?_eq_none_iff.mpr hmem]
      rfl
  rw [updatePositions]
  split
  · rename_i hqualify
    refine (List.map_map ..).trans (List.map_congr_left fun row _ => ?_)
    rw [← hstore]
    simp only [Function.comp_apply, decide_eq_true_eq, hqualify, ne_eq, not_false_eq_true, true_and]
    obtain hcleared | hcleared :=
      Decidable.em (row.year = call.year ∧ row.category = category)
    · rw [if_pos hcleared, if_pos hcleared]
      rfl
    · rw [if_neg hcleared, if_neg hcleared]
      rfl
  · rename_i hqualify
    refine List.map_congr_left fun row _ => ?_
    have hkept : ¬ (call.qualify ≠ [] ∧ row.year = call.year ∧ row.category = category) :=
      fun h => hqualify h.1
    rw [← hstore, if_neg hkept]
    simp only [decide_eq_true_eq]
    rfl

theorem storePositions_eq {entries : List (StatCategory × List (ℕ × ℕ))}
    (hentries : ∀ entry ∈ entries, (OrderedDict.keys entry.2).Nodup) (args : RankArgs γ)
    (t : StatTable γ) : storePositions (args.call (categoryAnd γ)) entries t =
      entries.foldl (fun t entry => updateCategory args t entry.1 entry.2) t := by
  induction entries generalizing t with
  | nil => rfl
  | cons entry entries ih =>
    have hstep : updatePositions (args.call (categoryAnd γ)) entry.1 entry.2 t =
        updateCategory args t entry.1 entry.2 :=
      UniqueTable.ext ((rows_updatePositions ..).trans
        (rows_updateCategory (hentries entry List.mem_cons_self) args t entry.1).symm)
    rw [storePositions, List.foldl_cons, List.foldl_cons, ← hstep]
    exact ih (fun e he => hentries e (List.mem_cons_of_mem _ he)) _

/-- The window is partitioned by what the order of the rows compares first. -/
theorem rowNumber_eq_windowPosition (args : RankArgs γ) (t : StatTable γ) (row : Stat γ) :
    rowNumber (t.rows.filter (isRanked (args.call (categoryAnd γ)) t)) row =
      windowPosition (categoryAnd γ) args t row := by
  have hranked : t.rows.filter (isRanked (args.call (categoryAnd γ)) t) =
      rankedRows (categoryAnd γ) args t := rfl
  rw [hranked, rowNumber, windowPosition, RowNumber.rowNumber, RowNumber.partition,
    List.countP_filter]
  congr 1
  refine List.countP_congr fun other _ => ?_
  simp only [isBefore, precedes, StatsModel.groupingFields, categoryAnd, Prod.mk.injEq,
    Bool.and_eq_true, decide_eq_true_eq]
  constructor
  · rintro ⟨hcategory, hgroup, hbefore⟩
    exact ⟨hbefore, hcategory, hgroup⟩
  · rintro ⟨hbefore, hcategory, hgroup⟩
    exact ⟨hcategory, hgroup, hbefore⟩

theorem nodup_positionsPerCat {call : RankCall γ}
    (h : (category, positions) ∈ positionsPerCat call t) :
    (OrderedDict.keys positions).Nodup := by
  obtain ⟨_, _, hentry⟩ := List.mem_map.mp h
  cases hentry
  rw [OrderedDict.keys, List.map_map]
  exact t.nodup.sublist ((List.filter_sublist.trans List.filter_sublist).map Stat.pk)

/-- What the positions of the categories say of a row. -/
theorem get?_positionsPerCat (h : (row.category, positions) ∈
    positionsPerCat (args.call (categoryAnd γ)) t) (hrow : row ∈ t.rows) :
    OrderedDict.get? positions row.pk =
      if isRanked (args.call (categoryAnd γ)) t row then
        some (windowPosition (categoryAnd γ) args t row)
      else none := by
  have hnodup := nodup_positionsPerCat h
  split
  · rename_i hranked
    obtain ⟨_, _, hentry⟩ := List.mem_map.mp h
    cases hentry
    refine OrderedDict.get?_of_mem hnodup (List.mem_map.mpr ⟨row, ?_, ?_⟩)
    · simp only [List.mem_filter, decide_true, and_true]
      exact ⟨hrow, hranked⟩
    · rw [rowNumber_eq_windowPosition]
  · rename_i hranked
    rw [OrderedDict.get?_eq_none_iff]
    intro hkey
    exact hranked ((isRanked_iff hrow).mpr (ranked_of_mem_positions h hrow hkey).2)

theorem rows_of_ranks (h : Ranks (args.call (categoryAnd γ)) t t') :
    t'.rows = t.rows.map fun row =>
      Stat.withPosition row (newPosition (categoryAnd γ) args t row) := by
  obtain ⟨entries, hentries, rfl⟩ := h
  have hmem : ∀ entry ∈ entries, entry ∈ positionsPerCat (args.call (categoryAnd γ)) t :=
    fun entry hentry => hentries.mem_iff.mp hentry
  have hkeys : (OrderedDict.keys entries).Nodup := by
    rw [OrderedDict.keys, (hentries.map _).nodup_iff, positionsPerCat, List.map_map]
    exact List.Nodup.map (fun _ _ heq => heq) (List.nodup_dedup _)
  rw [storePositions_eq fun entry hentry => nodup_positionsPerCat (hmem entry hentry),
    rows_foldl_updateCategory hkeys fun entry hentry => nodup_positionsPerCat (hmem entry hentry)]
  · refine List.map_congr_left fun row hrow => congrArg (Stat.withPosition row) ?_
    have hcategory : row.category ∈ OrderedDict.keys entries ↔
        ∃ other ∈ rankedRows (categoryAnd γ) args t, other.category = row.category := by
      rw [OrderedDict.keys, (hentries.map _).mem_iff, positionsPerCat, List.map_map]
      simp [rankedRows]
    rw [newPosition]
    cases hget : OrderedDict.get? entries row.category with
    | none =>
      have hother := fun hother => OrderedDict.get?_eq_none_iff.mp hget (hcategory.mpr hother)
      have hranked : ¬ isRanked (args.call (categoryAnd γ)) t row = true := fun hranked =>
        hother ⟨row, mem_rankedRows.mpr ⟨hrow, hranked⟩, rfl⟩
      rw [if_neg hranked]
      exact (if_neg fun hcleared => hother hcleared.2.2).symm
    | some positions =>
      have hentry : (row.category, positions) ∈ entries := OrderedDict.mem_of_get? hget
      have hother := hcategory.mp (List.mem_map_of_mem (f := Prod.fst) hentry)
      simp only [get?_positionsPerCat (hmem _ hentry) hrow, hother, and_true]
      split
      · rfl
      · rfl
  · intro entry hentry row hrow hkey
    exact (ranked_of_mem_positions (hmem entry hentry) hrow hkey).1

/-- A call reads and stores what the queries of a model with a grouping field of its own do. -/
theorem ranks_iff_reranks (args : RankArgs γ) (t t' : StatTable γ) :
    Ranks (args.call (categoryAnd γ)) t t' ↔ Reranks (categoryAnd γ) args t t' := by
  have hranks : Ranks (args.call (categoryAnd γ)) t (rank t (args.call (categoryAnd γ))) :=
    ⟨_, List.Perm.refl _, rfl⟩
  have hreranks : Reranks (categoryAnd γ) args t (rankInOrder (categoryAnd γ) args t) :=
    ⟨_, List.Perm.refl _, rfl⟩
  constructor
  · intro h
    have hsame : t' = rankInOrder (categoryAnd γ) args t :=
      UniqueTable.ext ((rows_of_ranks h).trans (rows_of_reranks hreranks).symm)
    rwa [hsame]
  · intro h
    have hsame : t' = rank t (args.call (categoryAnd γ)) :=
      UniqueTable.ext ((rows_of_reranks h).trans (rows_of_ranks hranks).symm)
    rwa [hsame]

end Queries

end StatsManager

end Swat4Stats
