import Swat4Stats.RankQueries

/-!
# Placings

What a call of `rank` leaves behind: the ranked rows of a group hold the places `1..n` by points
and then by primary key. Without qualifications nothing else moves; with them, old positions are
cleared in the categories where at least one row is ranked, and in no other.
-/

namespace Swat4Stats

set_option autoImplicit false

namespace StatsManager

variable {γ κ : Type} [DecidableEq κ]

theorem ordersRows_precedes (t : StatTable γ) {rows : List (Stat γ)}
    (hrows : ∀ row ∈ rows, row ∈ t.rows) : OrdersRows precedes rows where
  irrefl row _ := by simp [precedes]
  trans a _ b _ c _ hab hbc := by
    simp only [precedes, decide_eq_true_eq] at hab hbc ⊢
    obtain hab | ⟨hab, hpk⟩ := hab
    · obtain hbc | ⟨hbc, _⟩ := hbc
      · exact .inl (hbc.trans hab)
      · exact .inl (hbc ▸ hab)
    · obtain hbc | ⟨hbc, hpk'⟩ := hbc
      · exact .inl (hab ▸ hbc)
      · exact .inr ⟨hab.trans hbc, hpk.trans hpk'⟩
  total a ha b hb hne := by
    simp only [precedes, decide_eq_true_eq]
    obtain hlt | heq | hgt := lt_trichotomy a.points b.points
    · exact .inr (.inl hlt)
    · have hpk : a.pk ≠ b.pk := fun hpk =>
        hne (t.toTable.eq_of_key_eq (hrows a ha) (hrows b hb) hpk)
      obtain hlt | hgt := hpk.lt_or_gt
      · exact .inl (.inr ⟨heq, hlt⟩)
      · exact .inr (.inr ⟨heq.symm, hgt⟩)
    · exact .inl (.inl hgt)

/-- The rows of each group hold the positions `1..n`, and are in order by them. -/
structure Placed (model : StatsModel γ κ) (rows : List (Stat γ)) : Prop where
  numbered : ∀ key,
    ((RowNumber.partition model.groupingFields rows key).map Stat.position).Perm
      ((List.range' 1 (RowNumber.partition model.groupingFields rows key).length).map some)
  ordered : ∀ a ∈ rows, ∀ b ∈ rows, model.groupingFields a = model.groupingFields b →
    ∃ p q, a.position = some p ∧ b.position = some q ∧
      (p < q ↔ b.points < a.points ∨ a.points = b.points ∧ a.pk < b.pk)

section Rows

variable {model : StatsModel γ κ} {args : RankArgs γ} {t t' t'' : StatTable γ} {row : Stat γ}

/-- The ranked rows with the positions of the window. -/
def placedRows (model : StatsModel γ κ) (args : RankArgs γ) (t : StatTable γ) : List (Stat γ) :=
  (rankedRows model args t).map fun row =>
    Stat.withPosition row (some (windowPosition model args t row))

theorem placed_placedRows (model : StatsModel γ κ) (args : RankArgs γ) (t : StatTable γ) :
    Placed model (placedRows model args t) := by
  have horder : OrdersRows precedes (rankedRows model args t) :=
    ordersRows_precedes t fun row hrow => (mem_rankedRows.mp hrow).1
  have hnodup : (rankedRows model args t).Nodup := (t.nodup.of_map Stat.pk).filter _
  constructor
  · intro key
    have hpart : RowNumber.partition model.groupingFields (placedRows model args t) key =
        (RowNumber.partition model.groupingFields (rankedRows model args t) key).map fun row =>
          Stat.withPosition row (some (windowPosition model args t row)) := by
      rw [RowNumber.partition, placedRows, List.filter_map]
      rfl
    have hperm := (RowNumber.perm_range' model.groupingFields horder hnodup key).map some
    rw [List.map_map] at hperm
    rw [hpart, List.map_map, List.length_map]
    exact hperm
  · intro a ha b hb hkey
    obtain ⟨a, hrankedA, rfl⟩ := List.mem_map.mp ha
    obtain ⟨b, hrankedB, rfl⟩ := List.mem_map.mp hb
    refine ⟨_, _, rfl, rfl, ?_⟩
    apply (RowNumber.rowNumber_lt_iff horder hrankedA hrankedB hkey).trans
    rw [precedes, decide_eq_true_eq]
    rfl

theorem exists_mem_of_reranks (h : Reranks model args t t') {row' : Stat γ}
    (hrow : row' ∈ t'.rows) :
    ∃ row ∈ t.rows, row' = Stat.withPosition row (newPosition model args t row) := by
  rw [rows_of_reranks h] at hrow
  obtain ⟨row, hmem, rfl⟩ := List.mem_map.mp hrow
  exact ⟨row, hmem, rfl⟩

theorem mem_of_reranks (h : Reranks model args t t') (hrow : row ∈ t.rows) :
    Stat.withPosition row (newPosition model args t row) ∈ t'.rows := by
  rw [rows_of_reranks h]
  exact List.mem_map_of_mem hrow

theorem filter_eq_placedRows (h : Reranks model args t t') {p : Stat γ → Prop} [DecidablePred p]
    (hp : ∀ row position, p (Stat.withPosition row position) ↔ p row)
    (hranked : ∀ row, isRanked (args.call model) t row = true ↔ p row) :
    (t'.rows.filter fun row => p row) = placedRows model args t := by
  rw [rows_of_reranks h, List.filter_map, placedRows, rankedRows]
  have hfilter : t.rows.filter ((fun row => decide (p row)) ∘ fun row =>
      Stat.withPosition row (newPosition model args t row)) =
        t.rows.filter (isRanked (args.call model) t) := by
    apply List.filter_congr
    intro row _
    rw [Bool.eq_iff_iff, hranked, Function.comp_apply, decide_eq_true_iff, hp]
  rw [hfilter]
  refine List.map_congr_left fun row hrow => ?_
  rw [newPosition, if_pos (List.mem_filter.mp hrow).2]

theorem isRanked_of_reranks (h : Reranks model args t t') (row : Stat γ) (position : Option ℕ) :
    isRanked (args.call model) t' (Stat.withPosition row position) =
      isRanked (args.call model) t row := by
  simp only [isRanked, rows_of_reranks h, List.mem_map, exists_exists_and_eq_and]
  rfl

theorem rankedRows_of_reranks (h : Reranks model args t t') :
    rankedRows model args t' = (rankedRows model args t).map fun row =>
      Stat.withPosition row (newPosition model args t row) := by
  rw [rankedRows, rows_of_reranks h, List.filter_map]
  congr 1
  exact List.filter_congr fun row _ => isRanked_of_reranks h row _

theorem newPosition_of_reranks (h : Reranks model args t t') (row : Stat γ) :
    newPosition model args t' (Stat.withPosition row (newPosition model args t row)) =
      newPosition model args t row := by
  have hwindow : windowPosition model args t'
      (Stat.withPosition row (newPosition model args t row)) =
        windowPosition model args t row := by
    rw [windowPosition, rankedRows_of_reranks h]
    exact RowNumber.rowNumber_map model.groupingFields precedes
      (f := fun row => Stat.withPosition row (newPosition model args t row)) (fun _ => rfl)
      (fun _ _ => rfl) (rankedRows model args t) row
  have hcategory : (∃ other ∈ rankedRows model args t',
      other.category = (Stat.withPosition row (newPosition model args t row)).category) ↔
        ∃ other ∈ rankedRows model args t, other.category = row.category := by
    rw [rankedRows_of_reranks h]
    simp only [List.mem_map, exists_exists_and_eq_and]
    rfl
  have hyear : (Stat.withPosition row (newPosition model args t row)).year = row.year := rfl
  rw [newPosition, isRanked_of_reranks h, hwindow]
  simp only [hcategory, hyear]
  conv_rhs => rw [newPosition]
  split
  · rfl
  · rename_i hranked
    split
    · rfl
    · rename_i hkept
      change newPosition model args t row = row.position
      rw [newPosition, if_neg hranked, if_neg hkept]

theorem eq_of_reranks_reranks (h : Reranks model args t t') (h' : Reranks model args t' t'') :
    t'' = t' := by
  apply UniqueTable.ext
  rw [rows_of_reranks h', rows_of_reranks h, List.map_map]
  refine List.map_congr_left fun row _ => ?_
  simp only [Function.comp_apply, newPosition_of_reranks h]
  rfl

end Rows

/-- The row is of the year and of a category that is included, or not excluded. -/
def Targeted (args : RankArgs γ) (row : Stat γ) : Prop :=
  row.year = args.year ∧ args.targets row.category = true

instance (args : RankArgs γ) (row : Stat γ) : Decidable (Targeted args row) :=
  inferInstanceAs (Decidable (_ ∧ _))

/-- A correct and complete ranking of the targeted rows that touches nothing else. -/
structure RanksTargeted (model : StatsModel γ κ) (args : RankArgs γ) (t t' : StatTable γ) :
    Prop where
  placed : Placed model (t'.rows.filter fun row => Targeted args row)
  frame : ∃ position : Stat γ → Option ℕ,
    t'.rows = t.rows.map (fun row => Stat.withPosition row (position row)) ∧
      ∀ row ∈ t.rows, ¬ Targeted args row → position row = row.position
  again : ∀ t'', Reranks model args t' t'' → t'' = t'

omit [DecidableEq κ] in
theorem isRanked_unqualified (model : StatsModel γ κ) (year : ℕ)
    (cats excludeCats : Option (List StatCategory)) (t : StatTable γ) (row : Stat γ) :
    isRanked (RankArgs.call model { year, cats, excludeCats }) t row = true ↔
      Targeted { year, cats, excludeCats } row := by
  rw [isRanked, decide_eq_true_eq]
  simp [Targeted, RankArgs.call, RankArgs.conditions]

theorem ranksTargeted_of_reranks (model : StatsModel γ κ) (year : ℕ)
    (cats excludeCats : Option (List StatCategory)) {t t' : StatTable γ}
    (h : Reranks model { year, cats, excludeCats } t t') :
    RanksTargeted model { year, cats, excludeCats } t t' := by
  have hranked := isRanked_unqualified model year cats excludeCats t
  constructor
  · rw [filter_eq_placedRows h (fun _ _ => Iff.rfl) hranked]
    exact placed_placedRows model _ t
  · refine ⟨newPosition model { year, cats, excludeCats } t, rows_of_reranks h, ?_⟩
    intro row _ htargeted
    have hconditions : RankArgs.conditions { year, cats, excludeCats : RankArgs γ } = [] := rfl
    rw [newPosition, if_neg fun h => htargeted ((hranked row).mp h),
      if_neg fun h => h.1 hconditions]
  · exact fun t'' h' => eq_of_reranks_reranks h h'

/-- Two players of one score, one with more, and a row of another year. -/
def scores : StatTable ServerId where
  rows := [⟨1, .score, 2016, 7, 3, 10, none⟩, ⟨2, .score, 2016, 8, 3, 20, some 5⟩,
    ⟨3, .score, 2016, 9, 3, 10, none⟩, ⟨4, .score, 2015, 7, 3, 30, some 1⟩]
  nodup := by decide
  nodupKeys := by decide

theorem ranksTargeted_scores :
    RanksTargeted serverStatsModel { year := 2016, cats := some [.score] } scores
      (rankInOrder serverStatsModel { year := 2016, cats := some [.score] } scores) :=
  ranksTargeted_of_reranks serverStatsModel 2016 (some [.score]) none ⟨_, List.Perm.refl _, rfl⟩

example : (rankInOrder serverStatsModel { year := 2016, cats := some [.score] } scores).rows.map
    Stat.position = [some 2, some 1, some 3, some 1] := by decide +kernel

section Qualified

variable (model : StatsModel γ κ) (year : ℕ) (qualify : List (StatCategory × ℚ))

/-- The profile of the row has enough points in each of the reference categories. -/
def Qualified (t : StatTable γ) (row : Stat γ) : Prop :=
  ∀ condition ∈ qualify, ∃ ref ∈ t.rows, ref.profile = row.profile ∧ ref.year = year ∧
    ref.category = condition.1 ∧ condition.2 ≤ ref.points ∧
    model.sameExtraFields ref.group row.group = true

instance (t : StatTable γ) (row : Stat γ) : Decidable (Qualified model year qualify t row) :=
  inferInstanceAs (Decidable (∀ _ ∈ _, _))

/-- The qualified rows of the categories hold their places, and the others none. -/
structure RanksQualified (cats : List StatCategory) (t t' : StatTable γ) : Prop where
  placed : Placed model (t'.rows.filter fun row =>
    row.year = year ∧ row.category ∈ cats ∧ Qualified model year qualify t row)
  cleared : ∀ row ∈ t'.rows, row.year = year → row.category ∈ cats →
    ¬ Qualified model year qualify t row → row.position = none

variable {cats : List StatCategory} {t t' : StatTable γ}

omit [DecidableEq κ] in
theorem isRanked_qualified (hcats : cats ≠ []) (t : StatTable γ) (row : Stat γ) :
    isRanked (RankArgs.call model { year, cats := some cats, qualify := some qualify }) t row =
        true ↔
      row.year = year ∧ row.category ∈ cats ∧ Qualified model year qualify t row := by
  obtain ⟨cat, cats, rfl⟩ := List.exists_cons_of_ne_nil hcats
  rw [isRanked, decide_eq_true_eq]
  simp [RankArgs.call, RankArgs.conditions, RankArgs.targets, Qualified]

/-- A row that is not qualified is cleared exactly if another row of its category is ranked. -/
theorem newPosition_of_not_qualified (hqualify : qualify ≠ []) {row : Stat γ}
    (hyear : row.year = year) (hcategory : row.category ∈ cats)
    (hrow : ¬ Qualified model year qualify t row) :
    newPosition model { year, cats := some cats, qualify := some qualify } t row =
      if ∃ other ∈ t.rows, other.year = year ∧ other.category = row.category ∧
        Qualified model year qualify t other then none
      else row.position := by
  have hranked := isRanked_qualified model year qualify (List.ne_nil_of_mem hcategory) t
  have hother : (∃ other ∈ rankedRows model
      { year, cats := some cats, qualify := some qualify } t, other.category = row.category) ↔
        ∃ other ∈ t.rows, other.year = year ∧ other.category = row.category ∧
          Qualified model year qualify t other := by
    constructor
    · rintro ⟨other, hother, hsame⟩
      obtain ⟨hmem, hother⟩ := mem_rankedRows.mp hother
      obtain ⟨hyear, _, hqualified⟩ := (hranked other).mp hother
      exact ⟨other, hmem, hyear, hsame, hqualified⟩
    · rintro ⟨other, hmem, hyear, hsame, hqualified⟩
      have hother := (hranked other).mpr ⟨hyear, hsame ▸ hcategory, hqualified⟩
      exact ⟨other, mem_rankedRows.mpr ⟨hmem, hother⟩, hsame⟩
  have hconditions : RankArgs.conditions
      { year, cats := some cats, qualify := some qualify : RankArgs γ } ≠ [] := hqualify
  rw [newPosition, if_neg fun h => hrow ((hranked row).mp h).2.2]
  simp only [hconditions, hother, hyear, ne_eq, not_false_eq_true, true_and]

theorem ranksQualified_iff (hqualify : qualify ≠ [])
    (h : Reranks model { year, cats := some cats, qualify := some qualify } t t') :
    RanksQualified model year qualify cats t t' ↔
      ∀ category ∈ cats,
        (∃ row ∈ t.rows, row.year = year ∧ row.category = category ∧
          Qualified model year qualify t row) ∨
        ∀ row ∈ t.rows, row.year = year → row.category = category → row.position = none := by
  constructor
  · intro hranks category hcategory
    obtain hother | hother := Classical.em (∃ row ∈ t.rows, row.year = year ∧
      row.category = category ∧ Qualified model year qualify t row)
    · exact .inl hother
    · right
      rintro row hrow hyear rfl
      have hqualified : ¬ Qualified model year qualify t row := fun hqualified =>
        hother ⟨row, hrow, hyear, rfl, hqualified⟩
      have hnone := hranks.cleared _ (mem_of_reranks h hrow) hyear hcategory hqualified
      change newPosition model _ t row = none at hnone
      rwa [newPosition_of_not_qualified model year qualify hqualify hyear hcategory hqualified,
        if_neg hother] at hnone
  · intro hcondition
    constructor
    · obtain rfl | hcats := eq_or_ne cats []
      · constructor
        · simp [RowNumber.partition]
        · simp
      · rw [filter_eq_placedRows h (fun _ _ => Iff.rfl)
          (isRanked_qualified model year qualify hcats t)]
        exact placed_placedRows model _ t
    · intro row' hrow' hyear hcategory hqualified
      obtain ⟨row, hrow, rfl⟩ := exists_mem_of_reranks h hrow'
      have hrowYear : row.year = year := hyear
      refine (newPosition_of_not_qualified model year qualify hqualify hrowYear hcategory
        hqualified).trans ?_
      split
      · rfl
      · rename_i hother
        exact (hcondition row.category hcategory).resolve_left hother row hrow hyear rfl

end Qualified

/-- A player who was ranked once and has not played enough since. -/
def stalePosition : StatTable ℕ where
  rows := [⟨1, .spmRatio, 2016, 7, 24, 5, some 1⟩]
  nodup := by decide
  nodupKeys := by decide

theorem stalePosition_survives :
    ¬ ∀ t', Reranks playerStatsModel
        { year := 2016, cats := some [.spmRatio], qualify := some [(.time, 1000)] }
        stalePosition t' →
      RanksQualified playerStatsModel 2016 [(.time, 1000)] [.spmRatio] stalePosition t' := by
  intro hall
  have hranks := hall _ ⟨_, List.Perm.refl _, rfl⟩
  have hnone := hranks.cleared ⟨1, .spmRatio, 2016, 7, 24, 5, some 1⟩ (by decide +kernel) rfl
    (by decide) (by decide +kernel)
  cases hnone

/-- The same player next to one who has played enough. -/
def oneQualified : StatTable ℕ where
  rows := [⟨1, .spmRatio, 2016, 7, 24, 5, some 1⟩, ⟨2, .spmRatio, 2016, 8, 24, 3, none⟩,
    ⟨3, .time, 2016, 8, 1, 1000, none⟩]
  nodup := by decide
  nodupKeys := by decide

theorem ranksQualified_oneQualified :
    RanksQualified playerStatsModel 2016 [(.time, 1000)] [.spmRatio] oneQualified
      (rankInOrder playerStatsModel
        { year := 2016, cats := some [.spmRatio], qualify := some [(.time, 1000)] } oneQualified) :=
  (ranksQualified_iff playerStatsModel 2016 [(.time, 1000)] (by decide)
    ⟨_, List.Perm.refl _, rfl⟩).mpr (by decide +kernel)

end StatsManager

end Swat4Stats
