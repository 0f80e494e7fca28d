import Swat4Stats.Library.TopRows
import Swat4Stats.Placings
import Swat4Stats.ServerStatsMerge

/-!
# Leaderboards

`update_player_positions_for_year` ranks the categories by several calls of `rank`, and the view of
the message of the day lists the first rows of one category. Each category is ranked by one of the
calls, and the others leave its rows alone.
-/

namespace Swat4Stats

set_option autoImplicit false

open StatsManager Transition

namespace Leaderboards

open ServerStatsManager (minTime minGames minKills)

/-- `TRACKER_MIN_WEAPON_SHOTS` -/
def minWeaponShots : ℚ := 1000

/-- `TRACKER_MIN_GRENADE_SHOTS` -/
def minGrenadeShots : ℚ := 100

/-- The calls for `PlayerStats`. -/
def playerCalls (year : ℕ) : List (RankArgs ℕ) :=
  [{ year, cats := some [.spmRatio], qualify := some [(.time, minTime)] },
    { year, cats := some [.sprRatio], qualify := some [(.games, minGames)] },
    { year, cats := some [.kdRatio], qualify := some [(.kills, minKills)] },
    { year
      cats := some [.weaponHitRatio, .weaponKillRatio]
      qualify := some [(.weaponShots, minWeaponShots)] },
    { year, cats := some [.grenadeHitRatio], qualify := some [(.grenadeShots, minGrenadeShots)] },
    { year
      excludeCats := some [.spmRatio, .sprRatio, .kdRatio, .weaponHitRatio, .weaponKillRatio,
        .grenadeHitRatio, .weaponTeamhitRatio, .grenadeTeamhitRatio] }]

/-- The calls for `GametypeStats`. -/
def gametypeCalls (year : ℕ) : List (RankArgs GameType) :=
  [{ year, cats := some [.spmRatio], qualify := some [(.time, minTime)] },
    { year, cats := some [.sprRatio], qualify := some [(.games, minGames)] },
    { year, excludeCats := some [.spmRatio, .sprRatio] }]

section Calls

variable {γ κ : Type} [DecidableEq κ]

/-- The calls may turn `t` into `t'`, one after the other. -/
def ReranksAll (model : StatsModel γ κ) : List (RankArgs γ) → StatTable γ → StatTable γ → Prop
  | [], t, t' => t' = t
  | args :: calls, t, t' => ∃ u, Reranks model args t u ∧ ReranksAll model calls u t'

variable {model : StatsModel γ κ} {args : RankArgs γ} {calls calls' : List (RankArgs γ)}
  {t t' t'' : StatTable γ} {category : StatCategory} {row : Stat γ}

theorem reranksAll_append :
    ReranksAll model (calls ++ calls') t t'' ↔
      ∃ t', ReranksAll model calls t t' ∧ ReranksAll model calls' t' t'' := by
  induction calls generalizing t with
  | nil => simp [ReranksAll]
  | cons args calls ih =>
    simp only [List.cons_append, ReranksAll, ih]
    exact ⟨fun ⟨u, hu, v, huv, hv⟩ => ⟨v, ⟨u, hu, huv⟩, hv⟩,
      fun ⟨v, ⟨u, hu, huv⟩, hv⟩ => ⟨u, hu, v, huv, hv⟩⟩

omit [DecidableEq κ] in
/-- Who is ranked does not depend on the positions. -/
theorem isRanked_withPosition {position : Stat γ → Option ℕ}
    (hrows : t'.rows = t.rows.map fun row => Stat.withPosition row (position row))
    (call : RankCall γ) (row : Stat γ) : isRanked call t' row = isRanked call t row := by
  simp only [isRanked, hrows, List.mem_map, exists_exists_and_eq_and]
  rfl

theorem isRanked_of_reranksAll (h : ReranksAll model calls t t') (call : RankCall γ)
    (row : Stat γ) : isRanked call t' row = isRanked call t row := by
  induction calls generalizing t with
  | nil => rw [h]
  | cons args calls ih =>
    obtain ⟨u, hu, hrest⟩ := h
    rw [ih hrest, isRanked_withPosition (rows_of_reranks hu)]

theorem newPosition_of_not_targets (htargets : args.targets category = false)
    (hcategory : row.category = category) : newPosition model args t row = row.position := by
  have hranked : ∀ other, other.category = category →
      ¬ isRanked (args.call model) t other = true := fun other hother h => by
    have hcats := (of_decide_eq_true h).2.1
    simp [RankArgs.call, hother, htargets] at hcats
  rw [newPosition, if_neg (hranked row hcategory), if_neg]
  rintro ⟨-, -, other, hother, heq⟩
  exact hranked other (heq.trans hcategory) (mem_rankedRows.mp hother).2

/-- Calls for other categories leave the rows of a category as they are. -/
theorem filter_of_reranks (h : Reranks model args t t') (htargets : args.targets category = false) :
    (t'.rows.filter fun row => row.category = category) =
      t.rows.filter fun row => row.category = category := by
  rw [rows_of_reranks h, List.filter_map]
  have hcategory : ((fun row : Stat γ => decide (row.category = category)) ∘ fun row =>
      Stat.withPosition row (newPosition model args t row)) =
        fun row => decide (row.category = category) := rfl
  rw [hcategory]
  refine (List.map_congr_left fun row hrow => ?_).trans (List.map_id _)
  rw [newPosition_of_not_targets htargets (of_decide_eq_true (List.mem_filter.mp hrow).2)]
  rfl

theorem filter_of_reranksAll (h : ReranksAll model calls t t')
    (htargets : ∀ args ∈ calls, args.targets category = false) :
    (t'.rows.filter fun row => row.category = category) =
      t.rows.filter fun row => row.category = category := by
  induction calls generalizing t with
  | nil => rw [h]
  | cons args calls ih =>
    obtain ⟨u, hu, hrest⟩ := h
    obtain ⟨hargs, hcalls⟩ := List.forall_mem_cons.mp htargets
    rw [ih hrest hcalls, filter_of_reranks hu hargs]

end Calls

/-- What a page lists: the rows of a year and a category, of all groups or of one. -/
structure Page (γ : Type) where
  year : ℕ
  category : StatCategory
  group : γ → Bool

section Page

variable {γ κ : Type}

def Page.Shows (page : Page γ) (row : Stat γ) : Prop :=
  row.year = page.year ∧ row.category = page.category ∧ page.group row.group = true

instance (page : Page γ) (row : Stat γ) : Decidable (page.Shows row) :=
  inferInstanceAs (Decidable (_ ∧ _ ∧ _))

def place (row : Stat γ) : ℕ := row.position.getD 0

/-- A result of the query of a page. Rows that hold the same position come in any order. -/
def Page.Lists (page : Page γ) (t : StatTable γ) (limit : ℕ) (shown : List (Stat γ)) : Prop :=
  ∃ sorted : List (Stat γ),
    sorted.Perm (t.rows.filter fun row =>
      page.Shows row ∧ row.position.any fun position => position ≤ limit) ∧
    sorted.Pairwise (fun a b => place a ≤ place b) ∧ shown = sorted.take limit

/-- Somebody qualifies for the category, or nobody holds a position in it from earlier. -/
def Page.Settled (model : StatsModel γ κ) (qualify : List (StatCategory × ℚ)) (page : Page γ)
    (t : StatTable γ) : Prop :=
  (∃ row ∈ t.rows, row.year = page.year ∧ row.category = page.category ∧
    Qualified model page.year qualify t row) ∨
  ∀ row ∈ t.rows, row.year = page.year → row.category = page.category → row.position = none

/-- The call that ranks the category of a page. -/
structure Page.RankedBy (page : Page γ) (args : RankArgs γ) : Prop where
  targets : args.targets page.category = true
  year : args.year = page.year
  filters : args.filters = fun _ => true

variable [DecidableEq κ] {model : StatsModel γ κ} {args : RankArgs γ} {t t' : StatTable γ}
  {page : Page γ} {row : Stat γ} {limit : ℕ}

omit [DecidableEq κ] in
theorem isRanked_iff (hargs : page.RankedBy args) (hcategory : row.category = page.category) :
    isRanked (args.call model) t row = true ↔
      row.year = page.year ∧ Qualified model page.year args.conditions t row := by
  rw [isRanked, decide_eq_true_eq]
  simp [RankArgs.call, Qualified, hargs.year, hargs.filters, hcategory, hargs.targets]

/-- What the call gives a row of the page. -/
theorem newPosition_of_settled (hargs : page.RankedBy args)
    (hsettled : page.Settled model args.conditions t) (hrow : row ∈ t.rows)
    (hyear : row.year = page.year) (hcategory : row.category = page.category) :
    newPosition model args t row =
      if Qualified model page.year args.conditions t row then
        some (windowPosition model args t row)
      else none := by
  have hiff : isRanked (args.call model) t row = true ↔
      row.year = page.year ∧ Qualified model page.year args.conditions t row :=
    isRanked_iff hargs hcategory
  rw [newPosition]
  by_cases hqualified : Qualified model page.year args.conditions t row
  · rw [if_pos (hiff.mpr ⟨hyear, hqualified⟩), if_pos hqualified]
  · rw [if_neg fun h => hqualified (hiff.mp h).2, if_neg hqualified]
    have hconditions : args.conditions ≠ [] := fun hnil =>
      hqualified (hnil ▸ List.forall_mem_nil _)
    obtain ⟨other, hother, hotherYear, hotherCategory, hother'⟩ | hnone := hsettled
    · refine if_pos ⟨hconditions, hyear.trans hargs.year.symm, other, ?_,
        hotherCategory.trans hcategory.symm⟩
      exact mem_rankedRows.mpr ⟨hother, (isRanked_iff hargs hotherCategory).mpr
        ⟨hotherYear, hother'⟩⟩
    · rw [hnone row hrow hyear hcategory]
      exact ite_self _

/-- The qualified rows of a page. -/
def qualifiedRows (model : StatsModel γ κ) (qualify : List (StatCategory × ℚ)) (page : Page γ)
    (t t' : StatTable γ) : List (Stat γ) :=
  t'.rows.filter fun row => page.Shows row ∧ Qualified model page.year qualify t row

theorem qualifiedRows_of_reranks {key : κ} (hargs : page.RankedBy args)
    (hkey : ∀ row ∈ t.rows, model.groupingFields row = key ↔
      row.category = page.category ∧ page.group row.group = true)
    (hsettled : page.Settled model args.conditions t) (h : Reranks model args t t') :
    qualifiedRows model args.conditions page t t' =
      (RowNumber.partition model.groupingFields (rankedRows model args t) key).map fun row =>
        Stat.withPosition row (some (windowPosition model args t row)) := by
  have hshows : ∀ row ∈ t.rows,
      (page.Shows row ∧ Qualified model page.year args.conditions t row ↔
        model.groupingFields row = key ∧ isRanked (args.call model) t row = true) := by
    intro row hrow
    rw [hkey row hrow]
    constructor
    · rintro ⟨⟨hyear, hcategory, hgroup⟩, hqualified⟩
      exact ⟨⟨hcategory, hgroup⟩, (isRanked_iff hargs hcategory).mpr ⟨hyear, hqualified⟩⟩
    · rintro ⟨⟨hcategory, hgroup⟩, hranked⟩
      obtain ⟨hyear, hqualified⟩ := (isRanked_iff hargs hcategory).mp hranked
      exact ⟨⟨hyear, hcategory, hgroup⟩, hqualified⟩
  rw [qualifiedRows, rows_of_reranks h, List.filter_map, RowNumber.partition, rankedRows,
    List.filter_filter]
  have hfilter : t.rows.filter ((fun row => decide (page.Shows row ∧
      Qualified model page.year args.conditions t row)) ∘ fun row =>
        Stat.withPosition row (newPosition model args t row)) =
      t.rows.filter fun row => decide (model.groupingFields row = key) &&
        isRanked (args.call model) t row := by
    refine List.filter_congr fun row hrow => ?_
    rw [Bool.eq_iff_iff, Function.comp_apply, decide_eq_true_iff, Bool.and_eq_true,
      decide_eq_true_iff]
    exact hshows row hrow
  rw [hfilter]
  refine List.map_congr_left fun row hrow => ?_
  obtain ⟨hrow, hkeep⟩ := List.mem_filter.mp hrow
  rw [Bool.and_eq_true, decide_eq_true_iff] at hkeep
  obtain ⟨⟨hyear, hcategory, -⟩, hqualified⟩ := (hshows row hrow).mpr hkeep
  rw [newPosition_of_settled hargs hsettled hrow hyear hcategory, if_pos hqualified]

/-- A page lists the first of its qualified rows. -/
theorem topRows_of_reranks {key : κ} {shown : List (Stat γ)} (hargs : page.RankedBy args)
    (hkey : ∀ row ∈ t.rows, model.groupingFields row = key ↔
      row.category = page.category ∧ page.group row.group = true)
    (hsettled : page.Settled model args.conditions t) (h : Reranks model args t t')
    (hshown : page.Lists t' limit shown) :
    TopRows precedes (qualifiedRows model args.conditions page t t') limit shown := by
  obtain ⟨sorted, hperm, hsorted, rfl⟩ := hshown
  have hrows := qualifiedRows_of_reranks hargs hkey hsettled h
  have horder : OrdersRows precedes (rankedRows model args t) :=
    ordersRows_precedes t fun row hrow => (mem_rankedRows.mp hrow).1
  have hnodup : (rankedRows model args t).Nodup := (t.nodup.of_map Stat.pk).filter _
  refine TopRows.of_numbered ?_ ?_ ?_ hsorted
  · have hnumbers := RowNumber.perm_range' model.groupingFields horder hnodup key
    rw [hrows, List.map_map, List.length_map]
    exact hnumbers
  · rw [hrows]
    intro _ hplacedA _ hplacedB
    obtain ⟨a, ha, rfl⟩ := List.mem_map.mp hplacedA
    obtain ⟨b, hb, rfl⟩ := List.mem_map.mp hplacedB
    obtain ⟨ha, hkeyA⟩ := RowNumber.mem_partition.mp ha
    obtain ⟨hb, hkeyB⟩ := RowNumber.mem_partition.mp hb
    exact RowNumber.rowNumber_lt_iff horder ha hb (hkeyA.trans hkeyB.symm)
  · refine hperm.trans (List.Perm.of_eq ?_)
    rw [qualifiedRows, List.filter_filter]
    refine List.filter_congr fun row' hrow' => ?_
    obtain ⟨row, hrow, rfl⟩ := exists_mem_of_reranks h hrow'
    rw [Bool.eq_iff_iff, Bool.and_eq_true]
    simp only [decide_eq_true_iff]
    have hplace : page.Shows row → (newPosition model args t row =
        if Qualified model page.year args.conditions t row then
          some (windowPosition model args t row)
        else none) := by
      intro hshows
      exact newPosition_of_settled hargs hsettled hrow hshows.1 hshows.2.1
    constructor
    · rintro ⟨hshows, hany⟩
      change (newPosition model args t row).any _ = true at hany
      rw [hplace hshows] at hany
      split at hany
      · rename_i hqualified
        refine ⟨?_, hshows, hqualified⟩
        rw [place, Stat.withPosition, hplace hshows, if_pos hqualified]
        exact of_decide_eq_true hany
      · cases hany
    · rintro ⟨hle, hshows, hqualified⟩
      have hqualified : Qualified model page.year args.conditions t row := hqualified
      refine ⟨hshows, ?_⟩
      rw [place, Stat.withPosition, hplace hshows, if_pos hqualified] at hle
      rw [Stat.withPosition, hplace hshows, if_pos hqualified]
      exact decide_eq_true hle

variable {calls calls' : List (RankArgs γ)} {t'' : StatTable γ}

theorem exists_mem_of_reranksAll (h : ReranksAll model calls t t') {row' : Stat γ}
    (hrow : row' ∈ t'.rows) :
    ∃ row ∈ t.rows, ∃ position, row' = Stat.withPosition row position := by
  induction calls generalizing t with
  | nil => exact ⟨row', h ▸ hrow, row'.position, rfl⟩
  | cons args calls ih =>
    obtain ⟨u, hu, hrest⟩ := h
    obtain ⟨middle, hmiddle, position, rfl⟩ := ih hrest
    obtain ⟨row, hmem, rfl⟩ := exists_mem_of_reranks hu hmiddle
    exact ⟨row, hmem, position, rfl⟩

omit [DecidableEq κ] in
theorem filter_shows (rows : List (Stat γ)) (q : Stat γ → Prop) [DecidablePred q] :
    (rows.filter fun row => page.Shows row ∧ q row) =
      (rows.filter fun row => row.category = page.category).filter fun row =>
        page.Shows row ∧ q row := by
  rw [List.filter_filter]
  refine List.filter_congr fun row _ => ?_
  rw [Bool.eq_iff_iff, Bool.and_eq_true]
  simp only [decide_eq_true_iff]
  exact ⟨fun h => ⟨h, h.1.2.1⟩, And.left⟩

theorem mem_iff_of_reranksAll (h : ReranksAll model calls t t')
    (htargets : ∀ args ∈ calls, args.targets page.category = false)
    (hcategory : row.category = page.category) : row ∈ t'.rows ↔ row ∈ t.rows := by
  have hrows := filter_of_reranksAll h htargets
  have hmem : row ∈ (t'.rows.filter fun row => row.category = page.category) ↔
      row ∈ t.rows.filter fun row => row.category = page.category := by rw [hrows]
  simpa [hcategory] using hmem

theorem qualified_of_reranksAll (h : ReranksAll model calls t t') (hargs : page.RankedBy args)
    (hyear : row.year = page.year) (hcategory : row.category = page.category) :
    Qualified model page.year args.conditions t' row ↔
      Qualified model page.year args.conditions t row := by
  have hranked := isRanked_of_reranksAll h (args.call model) row
  have hafter : isRanked (args.call model) t' row = true ↔
      row.year = page.year ∧ Qualified model page.year args.conditions t' row :=
    isRanked_iff hargs hcategory
  have hiff := hafter.symm.trans
    ((Bool.eq_iff_iff.mp hranked).trans (isRanked_iff hargs hcategory))
  simpa [hyear] using hiff

theorem settled_of_reranksAll (h : ReranksAll model calls t t')
    (htargets : ∀ args ∈ calls, args.targets page.category = false) (hargs : page.RankedBy args)
    (hsettled : page.Settled model args.conditions t) :
    page.Settled model args.conditions t' := by
  obtain ⟨row, hrow, hyear, hcategory, hqualified⟩ | hnone := hsettled
  · exact .inl ⟨row, (mem_iff_of_reranksAll h htargets hcategory).mpr hrow, hyear, hcategory,
      (qualified_of_reranksAll h hargs hyear hcategory).mpr hqualified⟩
  · exact .inr fun row hrow hyear hcategory =>
      hnone row ((mem_iff_of_reranksAll h htargets hcategory).mp hrow) hyear hcategory

/-- Only the call that ranks the category decides what its page lists. -/
theorem topRows_of_reranksAll (key : κ) {shown : List (Stat γ)}
    (h : ReranksAll model (calls ++ args :: calls') t t'')
    (hcalls : ∀ other ∈ calls, other.targets page.category = false)
    (hcalls' : ∀ other ∈ calls', other.targets page.category = false)
    (hargs : page.RankedBy args)
    (hkey : ∀ row ∈ t.rows, model.groupingFields row = key ↔
      row.category = page.category ∧ page.group row.group = true)
    (hsettled : page.Settled model args.conditions t) (hshown : page.Lists t'' limit shown) :
    TopRows precedes (qualifiedRows model args.conditions page t t'') limit shown := by
  obtain ⟨u, hu, v, huv, hv⟩ := reranksAll_append.mp h
  have hkeyU : ∀ row ∈ u.rows, model.groupingFields row = key ↔
      row.category = page.category ∧ page.group row.group = true := by
    intro row hrow
    obtain ⟨row, hmem, position, rfl⟩ := exists_mem_of_reranksAll hu hrow
    exact hkey row hmem
  have hfilter := filter_of_reranksAll hv hcalls'
  have hshownV : page.Lists v limit shown := by
    obtain ⟨sorted, hperm, hsorted⟩ := hshown
    rw [filter_shows, hfilter, ← filter_shows] at hperm
    exact ⟨sorted, hperm, hsorted⟩
  have hrows : qualifiedRows model args.conditions page t t'' =
      qualifiedRows model args.conditions page u v := by
    rw [qualifiedRows, filter_shows, hfilter, ← filter_shows, qualifiedRows]
    refine List.filter_congr fun row _ => ?_
    rw [decide_eq_decide]
    exact and_congr_right fun ⟨hyear, hcategory, _⟩ =>
      (qualified_of_reranksAll hu hargs hyear hcategory).symm
  rw [hrows]
  exact topRows_of_reranks hargs hkeyU (settled_of_reranksAll hu hcalls hargs hsettled) huv hshownV

end Page

/-- What a profile needs to be ranked in a category among all players. -/
def playerQualify : StatCategory → List (StatCategory × ℚ)
  | .spmRatio => [(.time, minTime)]
  | .sprRatio => [(.games, minGames)]
  | .kdRatio => [(.kills, minKills)]
  | .weaponHitRatio | .weaponKillRatio => [(.weaponShots, minWeaponShots)]
  | .grenadeHitRatio => [(.grenadeShots, minGrenadeShots)]
  | _ => []

/-- And among those who play a game type. -/
def gametypeQualify : StatCategory → List (StatCategory × ℚ)
  | .spmRatio => [(.time, minTime)]
  | .sprRatio => [(.games, minGames)]
  | _ => []

theorem exists_split_of_countP {α : Type} {p : α → Bool} {l : List α} (h : l.countP p = 1) :
    ∃ before x after, l = before ++ x :: after ∧ p x = true ∧ (∀ y ∈ before, p y = false) ∧
      ∀ y ∈ after, p y = false := by
  induction l with
  | nil => cases h
  | cons x l ih =>
    by_cases hx : p x = true
    · rw [List.countP_cons_of_pos hx] at h
      have hzero : l.countP p = 0 := by omega
      exact ⟨[], x, l, rfl, hx, by simp, by simpa using hzero⟩
    · rw [List.countP_cons_of_neg hx] at h
      obtain ⟨before, y, after, rfl, hy, hbefore, hafter⟩ := ih h
      exact ⟨x :: before, y, after, rfl, hy, by simpa [hx] using hbefore, hafter⟩

theorem countP_playerCalls (year : ℕ) {category : StatCategory}
    (h : category ∉ [.weaponTeamhitRatio, .grenadeTeamhitRatio]) :
    (playerCalls year).countP (fun args => args.targets category) = 1 := by
  cases category <;> first | rfl | simp at h

theorem countP_gametypeCalls (year : ℕ) (category : StatCategory) :
    (gametypeCalls year).countP (fun args => args.targets category) = 1 := by
  cases category <;> rfl

theorem conditions_playerCalls {year : ℕ} {args : RankArgs ℕ} {category : StatCategory}
    (hargs : args ∈ playerCalls year) (htargets : args.targets category = true) :
    args.conditions = playerQualify category ∧ args.year = year ∧ args.filters = fun _ => true := by
  simp only [playerCalls, List.mem_cons, List.not_mem_nil, or_false] at hargs
  obtain rfl | rfl | rfl | rfl | rfl | rfl := hargs <;>
    cases category <;> first | exact ⟨rfl, rfl, rfl⟩ | cases htargets

theorem conditions_gametypeCalls {year : ℕ} {args : RankArgs GameType} {category : StatCategory}
    (hargs : args ∈ gametypeCalls year) (htargets : args.targets category = true) :
    args.conditions = gametypeQualify category ∧ args.year = year ∧
      args.filters = fun _ => true := by
  simp only [gametypeCalls, List.mem_cons, List.not_mem_nil, or_false] at hargs
  obtain rfl | rfl | rfl := hargs <;>
    cases category <;> first | exact ⟨rfl, rfl, rfl⟩ | cases htargets

end Leaderboards

/-- The fields that choose the rows; the others only reach the template. -/
structure MotdRequest where
  category : Text
  gametype : Text
  limit : Option ℤ

/-- `get` of `APIMotdLeaderboardView`, up to the query. -/
inductive MotdResult where
  | badRequest
  | keyError (key : Text)
  | page (category : StatCategory) (gametype : Option GameType) (limit : ℕ)
  deriving DecidableEq

namespace MotdLeaderboardForm

def gametypes : OrderedDict Text GameType :=
  [("coop".toList, .coOp), ("vip".toList, .vipEscort), ("rd".toList, .rapidDeployment),
    ("sg".toList, .smashAndGrab)]

/-- `Cats`, with the category that is stored under each name in place of its title. -/
def coop : OrderedDict Text StatCategory :=
  [("coop_score".toList, .coopScore), ("coop_time".toList, .coopTime),
    ("coop_games".toList, .coopGames), ("coop_wins".toList, .coopWins),
    ("coop_enemy_arrests".toList, .coopEnemyArrests), ("coop_enemy_kills".toList, .coopEnemyKills),
    ("coop_toc_reports".toList, .coopTocReports)]

def common : OrderedDict Text StatCategory :=
  [("score".toList, .score), ("top_score".toList, .topScore), ("time".toList, .time),
    ("wins".toList, .wins), ("kills".toList, .kills), ("arrests".toList, .arrests),
    ("top_kill_streak".toList, .topKillStreak), ("top_arrest_streak".toList, .topArrestStreak),
    ("spm_ratio".toList, .spmRatio), ("spr_ratio".toList, .sprRatio),
    ("kd_ratio".toList, .kdRatio), ("weapon_hit_ratio".toList, .weaponHitRatio)]

def vip : OrderedDict Text StatCategory :=
  [("vip_escapes".toList, .vipEscapes), ("vip_captures".toList, .vipCaptures),
    ("vip_rescues".toList, .vipRescues), ("vip_kills_valid".toList, .vipKillsValid)]

def rd : OrderedDict Text StatCategory := [("rd_bombs_defused".toList, .rdBombsDefused)]

def sg : OrderedDict Text StatCategory :=
  [("sg_escapes".toList, .sgEscapes), ("sg_kills".toList, .sgKills)]

def combined : OrderedDict Text StatCategory := coop ++ common ++ vip ++ sg ++ rd

def aliasToCategory : OrderedDict Text Text :=
  [("spm".toList, "spm_ratio".toList), ("kdr".toList, "kd_ratio".toList),
    ("kill_streak".toList, "top_kill_streak".toList),
    ("arrest_streak".toList, "top_arrest_streak".toList),
    ("accuracy".toList, "weapon_hit_ratio".toList),
    ("ammo_accuracy".toList, "weapon_hit_ratio".toList)]

def _guessGametypeByCategory (category : Text) : Option GameType :=
  OrderedDict.get? gametypes (Text.splitFirst '_' category).1

def limitOf (limit : Option ℤ) : Option ℕ :=
  match limit with
  | none => some 5
  | some limit => if 1 ≤ limit ∧ limit ≤ 20 then some limit.toNat else none

/-- `choice` of the common categories is told by `pick`. -/
def clean (pick : Fin common.length) (request : MotdRequest) : MotdResult :=
  let isChoice := request.category = [] ∨ (OrderedDict.get? combined request.category).isSome ∨
    (OrderedDict.get? aliasToCategory request.category).isSome
  let isGametype := request.gametype = [] ∨ (OrderedDict.get? gametypes request.gametype).isSome
  match limitOf request.limit with
  | none => .badRequest
  | some limit =>
    if isChoice ∧ isGametype then
      let category :=
        if request.category = [] then (common.get pick).1 else request.category
      let category := (OrderedDict.get? aliasToCategory category).getD category
      let gametype :=
        if request.gametype = [] then _guessGametypeByCategory category
        else OrderedDict.get? gametypes request.gametype
      match OrderedDict.get? combined category with
      | some stored => .page stored gametype limit
      | none => .keyError category
    else
      .badRequest

theorem get?_combined_alias : ∀ entry ∈ aliasToCategory,
    (OrderedDict.get? combined entry.2).isSome = true := by decide

theorem get?_combined_of_common : ∀ entry ∈ common,
    (OrderedDict.get? combined entry.1).isSome = true := by decide

theorem not_mem_combined : ∀ category ∈ [.weaponTeamhitRatio, .grenadeTeamhitRatio],
    category ∉ OrderedDict.values combined := by decide

/-- Whatever the form lets through has a title: the lookup in `combined` never fails. -/
theorem get?_combined_isSome {category : Text}
    (h : (OrderedDict.get? combined category).isSome = true ∨
      (OrderedDict.get? aliasToCategory category).isSome = true) :
    (OrderedDict.get? combined
      ((OrderedDict.get? aliasToCategory category).getD category)).isSome = true := by
  cases hget : OrderedDict.get? aliasToCategory category with
  | none => exact h.resolve_right (by simp [hget])
  | some stored => exact get?_combined_alias _ (OrderedDict.mem_of_get? hget)

variable {pick : Fin common.length} {request : MotdRequest}

theorem clean_ne_keyError (key : Text) : clean pick request ≠ .keyError key := by
  intro h
  simp only [clean] at h
  split at h
  · cases h
  · split at h
    · rename_i hvalid
      split at h
      · cases h
      · rename_i hnone
        have hsome := @get?_combined_isSome
          (if request.category = [] then (common.get pick).1 else request.category) (by
            split
            · exact .inl (get?_combined_of_common _ (List.get_mem common pick))
            · rename_i hne
              exact hvalid.1.resolve_left hne)
        rw [hnone] at hsome
        cases hsome
    · cases h

theorem page_of_clean {category : StatCategory} {gametype : Option GameType} {limit : ℕ}
    (h : clean pick request = .page category gametype limit) :
    category ∈ OrderedDict.values combined := by
  simp only [clean] at h
  split at h
  · cases h
  · split at h
    · split at h
      · rename_i hget
        cases h
        exact List.mem_map.mpr ⟨_, OrderedDict.mem_of_get? hget, rfl⟩
      · cases h
    · cases h

end MotdLeaderboardForm

namespace Leaderboards

open MotdLeaderboardForm

structure Tables where
  playerStats : StatTable ℕ
  gametypeStats : StatTable GameType

/-- A result of `update_player_positions_for_year`, the stats per server apart. -/
def UpdatesPositions (year : ℕ) (s s' : Tables) : Prop :=
  ReranksAll playerStatsModel (playerCalls year) s.playerStats s'.playerStats ∧
  ReranksAll gametypeStatsModel (gametypeCalls year) s.gametypeStats s'.gametypeStats

inductive Event where
  | saveStats (profile : ProfileId) (year : ℕ) (playerStats : PlayerQuerySet.Items)
      (gametypeStats : List (GameType × PlayerQuerySet.Items))
  | updatePositions (year : ℕ) (result : Tables)

def system : System Tables Event where
  enabled s
    | .saveStats _ _ _ _ => True
    | .updatePositions year result => UpdatesPositions year s result
  next s
    | .saveStats profile year playerStats gametypeStats =>
      { playerStats :=
          StatsManager.saveStats playerStats profile year StatCategory.legacy s.playerStats
        gametypeStats := saveGroupedStats gametypeStats profile year s.gametypeStats }
    | .updatePositions _ result => result

/-- The legacy category of a row is that of its category. -/
def Legacy (t : StatTable ℕ) : Prop := ∀ row ∈ t.rows, row.group = row.category.legacy

theorem legacy_inj {category category' : StatCategory} (h : category.legacy = category'.legacy) :
    category = category' := by
  have hindex : ∀ category : StatCategory,
      StatCategory.ofNat category.legacy = category := fun category => by cases category <;> rfl
  rw [← hindex category, h, hindex]

theorem Legacy.upsertPoints {t : StatTable ℕ} (h : Legacy t) (category : StatCategory)
    (profile : ProfileId) (year : ℕ) (points : ℚ) :
    Legacy (upsertPoints ⟨year, category, profile, category.legacy⟩ points t) := by
  intro row hrow
  obtain heq | hne := eq_or_ne row.key ⟨year, category, profile, category.legacy⟩
  · obtain ⟨-, hcategory, -, hgroup⟩ := StatKey.mk.inj heq
    rw [hgroup, hcategory]
  · have hget : t.get? row.key = some row :=
      (UniqueTable.get?_upsert_of_ne hne).symm.trans (UniqueTable.get?_of_mem hrow)
    exact h row (UniqueTable.get?_eq_some_iff.mp hget).1

theorem Legacy.saveStats {t : StatTable ℕ} (h : Legacy t) (items : PlayerQuerySet.Items)
    (profile : ProfileId) (year : ℕ) :
    Legacy (StatsManager.saveStats items profile year StatCategory.legacy t) := by
  induction items generalizing t with
  | nil => exact h
  | cons item items ih =>
    apply ih
    obtain ⟨category, _ | points⟩ := item
    · exact h
    · simp only [saveItem]
      split
      · exact h
      · exact h.upsertPoints category profile year points

theorem Legacy.next {s : Tables} (h : Legacy s.playerStats) (e : Event)
    (henabled : system.enabled s e) : Legacy (system.next s e).playerStats := by
  cases e with
  | saveStats profile year playerStats gametypeStats => exact h.saveStats playerStats profile year
  | updatePositions year result =>
    intro row' hrow
    obtain ⟨row, hmem, position, rfl⟩ := exists_mem_of_reranksAll henabled.1 hrow
    exact h row hmem

theorem Legacy.of_run {s s' : Tables} {es : List Event} (hrun : Run system s es s')
    (h : Legacy s.playerStats) : Legacy s'.playerStats := by
  induction hrun with
  | nil s => exact h
  | cons henabled _ ih => exact ih (h.next _ henabled)

def Tables.empty : Tables := ⟨UniqueTable.empty, UniqueTable.empty⟩

/-- The page of all players, and the one of a game type. -/
def playerPage (year : ℕ) (category : StatCategory) : Page ℕ := ⟨year, category, fun _ => true⟩

def gametypePage (year : ℕ) (category : StatCategory) (gametype : GameType) : Page GameType :=
  ⟨year, category, fun group => group = gametype⟩

theorem topRows_of_playerCalls {year limit : ℕ} {category : StatCategory} {t t' : StatTable ℕ}
    {shown : List (Stat ℕ)} (h : ReranksAll playerStatsModel (playerCalls year) t t')
    (hlegacy : Legacy t) (hcategory : category ∉ [.weaponTeamhitRatio, .grenadeTeamhitRatio])
    (hsettled : (playerPage year category).Settled playerStatsModel (playerQualify category) t)
    (hshown : (playerPage year category).Lists t' limit shown) :
    TopRows precedes
      (qualifiedRows playerStatsModel (playerQualify category) (playerPage year category) t t')
      limit shown := by
  obtain ⟨calls, args, calls', hsplit, htargets, hcalls, hcalls'⟩ :=
    exists_split_of_countP (countP_playerCalls year hcategory)
  obtain ⟨hconditions, hyear, hfilters⟩ :=
    conditions_playerCalls (hsplit ▸ by simp : args ∈ playerCalls year) htargets
  rw [hsplit] at h
  rw [← hconditions] at hsettled ⊢
  refine topRows_of_reranksAll category.legacy h hcalls hcalls'
    ⟨htargets, hyear, hfilters⟩ (fun row hrow => ?_) hsettled hshown
  rw [show playerStatsModel.groupingFields row = row.group from rfl, hlegacy row hrow]
  exact ⟨fun heq => ⟨legacy_inj heq, rfl⟩, fun heq => congrArg _ heq.1⟩

theorem topRows_of_gametypeCalls {year limit : ℕ} {category : StatCategory} {gametype : GameType}
    {t t' : StatTable GameType} {shown : List (Stat GameType)}
    (h : ReranksAll gametypeStatsModel (gametypeCalls year) t t')
    (hsettled : (gametypePage year category gametype).Settled gametypeStatsModel
      (gametypeQualify category) t)
    (hshown : (gametypePage year category gametype).Lists t' limit shown) :
    TopRows precedes
      (qualifiedRows gametypeStatsModel (gametypeQualify category)
        (gametypePage year category gametype) t t')
      limit shown := by
  obtain ⟨calls, args, calls', hsplit, htargets, hcalls, hcalls'⟩ :=
    exists_split_of_countP (countP_gametypeCalls year category)
  obtain ⟨hconditions, hyear, hfilters⟩ :=
    conditions_gametypeCalls (hsplit ▸ by simp : args ∈ gametypeCalls year) htargets
  rw [hsplit] at h
  rw [← hconditions] at hsettled ⊢
  refine topRows_of_reranksAll (category, gametype) h hcalls hcalls'
    ⟨htargets, hyear, hfilters⟩ (fun row _ => ?_) hsettled hshown
  rw [show gametypeStatsModel.groupingFields row = (row.category, row.group) from rfl,
    Prod.mk.injEq, gametypePage, decide_eq_true_eq]

/-- After an update of the positions, a page of the message of the day lists the first of the
players who qualify for its category, by points. Earlier saves and updates may have left anything,
except old positions in a category that nobody qualifies for any more. -/
theorem leaderboard_of_run {es : List Event} {s s' : Tables} {year : ℕ}
    (hrun : Run system Tables.empty es s) (hupdate : UpdatesPositions year s s')
    {pick : Fin common.length} {request : MotdRequest} {category : StatCategory}
    {gametype : Option GameType} {limit : ℕ}
    (hclean : clean pick request = .page category gametype limit) :
    (∀ shown, gametype = none →
      (playerPage year category).Settled playerStatsModel (playerQualify category) s.playerStats →
      (playerPage year category).Lists s'.playerStats limit shown →
      TopRows precedes (qualifiedRows playerStatsModel (playerQualify category)
        (playerPage year category) s.playerStats s'.playerStats) limit shown) ∧
    ∀ chosen shown, gametype = some chosen →
      (gametypePage year category chosen).Settled gametypeStatsModel (gametypeQualify category)
        s.gametypeStats →
      (gametypePage year category chosen).Lists s'.gametypeStats limit shown →
      TopRows precedes (qualifiedRows gametypeStatsModel (gametypeQualify category)
        (gametypePage year category chosen) s.gametypeStats s'.gametypeStats) limit shown := by
  have hlegacy : Legacy s.playerStats :=
    Legacy.of_run hrun fun row hrow => absurd hrow List.not_mem_nil
  have hcategory : category ∉ [.weaponTeamhitRatio, .grenadeTeamhitRatio] := fun hmem =>
    not_mem_combined category hmem (page_of_clean hclean)
  constructor
  · exact fun shown _ hsettled hshown =>
      topRows_of_playerCalls hupdate.1 hlegacy hcategory hsettled hshown
  · exact fun chosen shown _ hsettled hshown =>
      topRows_of_gametypeCalls hupdate.2 hsettled hshown

section Example

/-- Three players, of whom one has not played long enough for a ratio. -/
def threePlayers : List Event :=
  [.saveStats 1 2024 [(.time, some 40000), (.spmRatio, some 2)] [],
    .saveStats 2 2024 [(.time, some 50000), (.spmRatio, some 3)] [],
    .saveStats 3 2024 [(.time, some 60), (.spmRatio, some 9)] []]

def saved : Tables := threePlayers.foldl system.next Tables.empty

def ranked : Tables where
  playerStats := (playerCalls 2024).foldl (fun t args => rankInOrder playerStatsModel args t)
    saved.playerStats
  gametypeStats := (gametypeCalls 2024).foldl
    (fun t args => rankInOrder gametypeStatsModel args t) saved.gametypeStats

theorem reranksAll_foldl {γ κ : Type} [DecidableEq κ] (model : StatsModel γ κ)
    (calls : List (RankArgs γ)) (t : StatTable γ) :
    ReranksAll model calls t (calls.foldl (fun t args => rankInOrder model args t) t) := by
  induction calls generalizing t with
  | nil => rfl
  | cons args calls ih => exact ⟨_, ⟨_, List.Perm.refl _, rfl⟩, ih _⟩

def shownPlayers : List (Stat ℕ) :=
  [⟨4, .spmRatio, 2024, 2, 24, 3, some 1⟩, ⟨2, .spmRatio, 2024, 1, 24, 2, some 2⟩]

theorem leaderboard_of_threePlayers :
    TopRows precedes (qualifiedRows playerStatsModel (playerQualify .spmRatio)
      (playerPage 2024 .spmRatio) saved.playerStats ranked.playerStats) 2 shownPlayers := by
  have hrun : Run system Tables.empty threePlayers saved :=
    .cons trivial (.cons trivial (.cons trivial (.nil _)))
  have hupdate : UpdatesPositions 2024 saved ranked :=
    ⟨reranksAll_foldl _ _ _, reranksAll_foldl _ _ _⟩
  have hclean : clean ⟨0, by decide⟩ ⟨"spm".toList, [], some 2⟩ = .page .spmRatio none 2 := by
    decide
  refine (leaderboard_of_run hrun hupdate hclean).1 _ rfl (.inl ?_) ⟨shownPlayers, ?_, ?_, rfl⟩
  · exact ⟨⟨2, .spmRatio, 2024, 1, 24, 2, none⟩, by decide +kernel, rfl, rfl, by decide +kernel⟩
  · decide +kernel
  · decide +kernel

end Example

end Leaderboards

end Swat4Stats
