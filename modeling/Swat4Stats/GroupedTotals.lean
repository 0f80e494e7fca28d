import Swat4Stats.Aggregates
import Swat4Stats.Library.GroupBy
import Mathlib.Algebra.BigOperators.Ring.Finset

/-!
# Totals of the groups

The stats of a profile by map, by server and by gametype are its stats taken apart: a game has one
of each, so that what is summed, counted or maximised over the groups is what it is over all rows.
The figures of the weapons are sums over the rows of the weapon table, one group for each name.
-/

namespace Swat4Stats

set_option autoImplicit false

namespace PlayerQuerySet

/-- The value under a category, null if there is none. -/
def valueOf (items : Items) (category : StatCategory) : Option ℚ := (items.lookup category).join

section Aggregate

variable {ρ γ : Type} [DecidableEq γ] {groupBy : ρ → γ} {rows : List ρ}

theorem lookup_aggregateStats (aggregates : Aggregates ρ) (rows : List ρ)
    (category : StatCategory) :
    (aggregateStats aggregates rows).lookup category =
      (aggregates.lookup category).map fun aggregate => aggregate rows := by
  induction aggregates with
  | nil => rfl
  | cons entry aggregates ih =>
    rw [aggregateStats] at ih
    rw [aggregateStats, List.map_cons, List.lookup_cons, List.lookup_cons, ih]
    split
    · rfl
    · rfl

theorem valueOf_aggregateStats {aggregates : Aggregates ρ} {category : StatCategory}
    {aggregate : List ρ → Option ℚ} (h : aggregates.lookup category = some aggregate)
    (rows : List ρ) : valueOf (aggregateStats aggregates rows) category = aggregate rows := by
  rw [valueOf, lookup_aggregateStats, h]
  rfl

theorem map_valueOf {aggregates : Aggregates ρ} {category : StatCategory}
    {aggregate : List ρ → Option ℚ} (h : aggregates.lookup category = some aggregate)
    (groupBy : ρ → γ) (rows : List ρ) {β : Type} (f : Option ℚ → β) :
    (aggregateStatsBy aggregates groupBy rows).map (fun entry => f (valueOf entry.2 category)) =
      (GroupBy.keys groupBy rows).map fun k => f (aggregate (GroupBy.group groupBy rows k)) := by
  rw [aggregateStatsBy, List.map_map]
  refine List.map_congr_left fun k _ => ?_
  rw [Function.comp_apply, valueOf_aggregateStats h]
  rfl

theorem filterMap_valueOf {aggregates : Aggregates ρ} {category : StatCategory}
    {aggregate : List ρ → Option ℚ} (h : aggregates.lookup category = some aggregate)
    (groupBy : ρ → γ) (rows : List ρ) :
    (aggregateStatsBy aggregates groupBy rows).filterMap (fun entry => valueOf entry.2 category) =
      (GroupBy.keys groupBy rows).filterMap fun k => aggregate (GroupBy.group groupBy rows k) := by
  rw [aggregateStatsBy, List.filterMap_map]
  refine List.filterMap_congr fun k _ => ?_
  rw [Function.comp_apply, valueOf_aggregateStats h]
  rfl

theorem getD_sum (column : ρ → Option ℤ) (rows : List ρ) :
    (sum column rows).getD 0 = (rows.map fun row => (((column row).getD 0 : ℤ) : ℚ)).sum := by
  have hsum : (sum column rows).getD 0 = (((rows.filterMap column).sum : ℤ) : ℚ) := by
    rw [sum]
    split
    · rename_i hnil
      rw [hnil]
      rfl
    · rfl
  rw [hsum]
  clear hsum
  induction rows with
  | nil => rfl
  | cons row rows ih =>
    rw [List.map_cons, List.sum_cons, ← ih, List.filterMap_cons]
    cases column row with
    | none => simp
    | some value => simp

theorem sum_getD_sum (column : ρ → Option ℤ) (groupBy : ρ → γ) (rows : List ρ) :
    ((GroupBy.keys groupBy rows).map fun k =>
      (sum column (GroupBy.group groupBy rows k)).getD 0).sum = (sum column rows).getD 0 := by
  simp only [getD_sum]
  exact GroupBy.sum_keys _ rows

theorem sum_getD_countDistinct {column : ρ → Option ℕ}
    (hone : ∀ x ∈ rows, ∀ y ∈ rows, ∀ n ∈ column x, n ∈ column y → groupBy x = groupBy y) :
    ((GroupBy.keys groupBy rows).map fun k =>
      (countDistinct column (GroupBy.group groupBy rows k)).getD 0).sum =
        (countDistinct column rows).getD 0 := by
  simp only [countDistinct, Option.getD_some]
  rw [← GroupBy.sum_length_dedup hone, Nat.cast_list_sum, List.map_map]
  rfl

theorem max?_map_cast (values : List ℤ) :
    (values.map fun value : ℤ => (value : ℚ)).max? =
      values.max?.map fun value : ℤ => (value : ℚ) := by
  cases hmax : values.max? with
  | none =>
    rw [List.max?_eq_none_iff] at hmax
    rw [hmax]
    rfl
  | some value =>
    obtain ⟨hmem, hle⟩ := List.max?_eq_some_iff.mp hmax
    rw [Option.map_some, List.max?_eq_some_iff]
    refine ⟨List.mem_map_of_mem hmem, ?_⟩
    intro other hother
    obtain ⟨other, hvalues, rfl⟩ := List.mem_map.mp hother
    exact_mod_cast hle other hvalues

theorem max_eq (column : ρ → Option ℤ) (rows : List ρ) :
    max column rows = (rows.filterMap column).max?.map fun value : ℤ => (value : ℚ) := by
  rw [max]
  cases (rows.filterMap column).max? with
  | none => rfl
  | some value => rfl

theorem max?_max (column : ρ → Option ℤ) (groupBy : ρ → γ) (rows : List ρ) :
    ((GroupBy.keys groupBy rows).filterMap fun k =>
      max column (GroupBy.group groupBy rows k)).max? = max column rows := by
  simp only [max_eq]
  rw [← List.map_filterMap, max?_map_cast, GroupBy.max?_keys]

/-- The filter that an aggregate applies by itself may as well be applied before. -/
theorem filterMap_filter_caseWhen {β : Type} (condition : ρ → Bool) (column : ρ → β)
    (rows : List ρ) :
    (rows.filter condition).filterMap (caseWhen condition column) =
      rows.filterMap (caseWhen condition column) := by
  rw [List.filterMap_filter]
  apply List.filterMap_congr
  intro row _
  rw [caseWhen]
  split
  · rfl
  · rfl

theorem eq_of_mem_caseWhen {β : Type} {condition : ρ → Bool} {column : ρ → β} {row : ρ} {b : β}
    (h : b ∈ caseWhen condition column row) : condition row = true ∧ column row = b := by
  rw [caseWhen] at h
  split at h
  · rename_i hcondition
    exact ⟨hcondition, Option.some_inj.mp h⟩
  · cases h

end Aggregate

theorem game_eq_of_pk_eq {db : Database} {x y : PlayerRow} (hx : x ∈ all db) (hy : y ∈ all db)
    (h : x.game.pk = y.game.pk) : x.game = y.game := by
  have hgame : ∀ row ∈ all db, row.game ∈ db.games.rows := by
    intro row hrow
    obtain ⟨player, _, hrow⟩ := List.mem_filterMap.mp hrow
    obtain ⟨game, hfind, rfl⟩ := Option.map_eq_some_iff.mp hrow
    exact (Table.find?_eq_some_iff.mp hfind).1
  exact db.games.eq_of_key_eq (hgame x hx) (hgame y hy) h

/-- What the groups add up to, and the greatest of what is greatest in them. -/
structure Partitions {γ : Type} (groups : List (γ × Items)) (totals : Items) : Prop where
  sums : ∀ category ∈ [StatCategory.score, .time, .games, .kills, .arrests],
    (groups.map fun entry => (valueOf entry.2 category).getD 0).sum =
      (valueOf totals category).getD 0
  maxima : ∀ category ∈ [StatCategory.topKillStreak, .topArrestStreak],
    (groups.filterMap fun entry => valueOf entry.2 category).max? = valueOf totals category

section Partitions

variable {γ : Type} [DecidableEq γ] {db : Database} {rows : List PlayerRow}
  {groupBy : PlayerRow → γ} {aggregates : Aggregates PlayerRow} {category : StatCategory}

theorem valueOf_aggregatePlayerStats {aggregate : List PlayerRow → Option ℚ}
    (h : playerAggregates.lookup category = some aggregate) (db : Database)
    (rows : List PlayerRow) :
    valueOf (aggregatePlayerStats db rows) category = aggregate (rows.filter qVersusModes) := by
  rw [valueOf, aggregatePlayerStats, List.lookup_append, lookup_aggregateStats, h]
  rfl

theorem sum_valueOf_sumVersus {field : PlayerField}
    (h : aggregates.lookup category = some (sumVersus field))
    (hplayer : playerAggregates.lookup category = some (sumVersus field)) :
    ((aggregateStatsBy aggregates groupBy rows).map fun entry =>
      (valueOf entry.2 category).getD 0).sum =
        (valueOf (aggregatePlayerStats db rows) category).getD 0 := by
  have hfilter : sumVersus field (rows.filter qVersusModes) = sumVersus field rows := by
    rw [sumVersus, sum, filterMap_filter_caseWhen]
    rfl
  rw [map_valueOf h groupBy rows fun value => value.getD 0,
    valueOf_aggregatePlayerStats hplayer, hfilter]
  exact sum_getD_sum _ groupBy rows

/-- No game is counted in two groups. -/
theorem sum_valueOf_games (h : aggregates.lookup .games = some _aggPlayerGames)
    (hone : ∀ x ∈ rows, ∀ y ∈ rows, x.game.pk = y.game.pk → groupBy x = groupBy y) :
    ((aggregateStatsBy aggregates groupBy rows).map fun entry =>
      (valueOf entry.2 .games).getD 0).sum =
        (valueOf (aggregatePlayerStats db rows) .games).getD 0 := by
  have hplayer : playerAggregates.lookup .games = some _aggPlayerGames := rfl
  have hfilter : _aggPlayerGames (rows.filter qVersusModes) = _aggPlayerGames rows := by
    rw [_aggPlayerGames, countGames, countDistinct, filterMap_filter_caseWhen]
    rfl
  rw [map_valueOf h groupBy rows fun value => value.getD 0,
    valueOf_aggregatePlayerStats hplayer, hfilter]
  apply sum_getD_countDistinct
  intro x hx y hy pk hpk hpk'
  exact hone x hx y hy
    ((eq_of_mem_caseWhen hpk).2.trans (eq_of_mem_caseWhen hpk').2.symm)

theorem max?_valueOf_maxVersus {field : PlayerField}
    (h : aggregates.lookup category = some (maxVersus field))
    (hplayer : playerAggregates.lookup category = some (maxVersus field)) :
    ((aggregateStatsBy aggregates groupBy rows).filterMap fun entry =>
      valueOf entry.2 category).max? = valueOf (aggregatePlayerStats db rows) category := by
  have hfilter : maxVersus field (rows.filter qVersusModes) = maxVersus field rows := by
    rw [maxVersus, max, filterMap_filter_caseWhen]
    rfl
  rw [filterMap_valueOf h, valueOf_aggregatePlayerStats hplayer, hfilter]
  exact max?_max _ groupBy rows

/-- The categories that add up, or have a maximum, in the groups. -/
def partitioned : List StatCategory :=
  [.score, .time, .games, .kills, .arrests, .topKillStreak, .topArrestStreak]

theorem lookup_partitioned (h : category ∈ partitioned) :
    mapAggregates.lookup category = playerAggregates.lookup category ∧
      serverAggregates.lookup category = playerAggregates.lookup category ∧
        gametypeAggregates.lookup category = playerAggregates.lookup category := by
  simp only [partitioned, List.mem_cons, List.not_mem_nil, or_false] at h
  obtain rfl | rfl | rfl | rfl | rfl | rfl | rfl := h <;> exact ⟨rfl, rfl, rfl⟩

theorem partitions (groupBy : Game → γ) (hrows : ∀ row ∈ rows, row ∈ all db)
    (haggregates : ∀ category ∈ partitioned,
      aggregates.lookup category = playerAggregates.lookup category) :
    Partitions (aggregateStatsBy aggregates (fun row => groupBy row.game) rows)
      (aggregatePlayerStats db rows) := by
  have hone : ∀ x ∈ rows, ∀ y ∈ rows, x.game.pk = y.game.pk →
      groupBy x.game = groupBy y.game := fun x hx y hy h =>
    congrArg groupBy (game_eq_of_pk_eq (hrows x hx) (hrows y hy) h)
  constructor
  · intro category hcategory
    simp only [List.mem_cons, List.not_mem_nil, or_false] at hcategory
    obtain rfl | rfl | rfl | rfl | rfl := hcategory
    · exact sum_valueOf_sumVersus (haggregates _ (by decide)) rfl
    · exact sum_valueOf_sumVersus (haggregates _ (by decide)) rfl
    · exact sum_valueOf_games (haggregates _ (by decide)) hone
    · exact sum_valueOf_sumVersus (haggregates _ (by decide)) rfl
    · exact sum_valueOf_sumVersus (haggregates _ (by decide)) rfl
  · intro category hcategory
    simp only [List.mem_cons, List.not_mem_nil, or_false] at hcategory
    obtain rfl | rfl := hcategory
    · exact max?_valueOf_maxVersus (haggregates _ (by decide)) rfl
    · exact max?_valueOf_maxVersus (haggregates _ (by decide)) rfl

end Partitions

section Weapons

variable {db : Database} {rows : List PlayerRow}

/-- The value of a category under the name of a weapon. -/
def weaponValue (groups : List (Option Equipment × Items)) (name : Equipment)
    (category : StatCategory) : Option ℚ :=
  (groups.lookup (some name)).bind fun items => valueOf items category

/-- The rows of the left join that have a weapon are those of the join. -/
theorem reduceOption_leftJoinWeapons (db : Database) (rows : List PlayerRow) :
    (leftJoinWeapons db rows).reduceOption = joinWeapons db rows := by
  have hsome : ∀ weapons : List WeaponRow, (weapons.map some).reduceOption = weapons :=
    fun weapons => (List.filterMap_map ..).trans (List.filterMap_some ..)
  rw [leftJoinWeapons, List.reduceOption, List.filterMap_flatMap, joinWeapons]
  refine List.flatMap_congr fun row _ => ?_
  have hrow : joinWeapons db [row] = _ := List.flatMap_singleton ..
  rw [← hrow]
  cases joinWeapons db [row] with
  | nil => rfl
  | cons weapon weapons => exact hsome (weapon :: weapons)

theorem aggregateStats_overWeapons (aggregates : Aggregates WeaponRow)
    (rows : List (Option WeaponRow)) :
    aggregateStats (overWeapons aggregates) rows = aggregateStats aggregates rows.reduceOption :=
  List.map_map

/-- The players without weapons have no values, so that nothing positive is lost with them. -/
theorem eq_none_of_noWeapon {db : Database} {rows : List PlayerRow} {items : Items}
    (h : (none, items) ∈ aggregateStatsByWeapon db rows) : ∀ item ∈ items, item.2 = none := by
  obtain ⟨_, _, heq⟩ := List.mem_map.mp h
  cases heq
  rw [aggregateStats_overWeapons]
  have hnil : ((leftJoinWeapons db (rows.filter qVersusModes)).filter fun row =>
      (row.map fun row => row.weapon.name) = none).reduceOption = [] := by
    rw [List.reduceOption, List.filterMap_eq_nil_iff]
    intro row hrow
    simpa using (List.mem_filter.mp hrow).2
  rw [hnil]
  decide

theorem getD_sumWeapons (condition : WeaponRow → Bool) (column : Weapon → ℤ)
    (rows : List WeaponRow) :
    (sumWeapons condition column rows).getD 0 =
      ((rows.filter condition).map fun row => ((column row.weapon : ℤ) : ℚ)).sum := by
  rw [sumWeapons, getD_sum, GroupBy.sum_filter]
  congr 1
  refine List.map_congr_left fun row _ => ?_
  rw [caseWhen]
  split
  · rfl
  · rfl

theorem getD_weaponValue {category : StatCategory} {column : Weapon → ℤ}
    (h : weaponAggregates.lookup category = some (sumWeapon column)) (db : Database)
    (rows : List PlayerRow) (name : Equipment) :
    (weaponValue (aggregateStatsByWeapon db rows) name category).getD 0 =
      ((GroupBy.group (fun row => row.weapon.name) (joinWeapons db (rows.filter qVersusModes))
        name).map fun row => ((column row.weapon : ℤ) : ℚ)).sum := by
  let nameOf : WeaponRow → Equipment := fun row => row.weapon.name
  let joined := leftJoinWeapons db (rows.filter qVersusModes)
  have hlookup := GroupBy.lookup_map_pair
    (fun name => aggregateStats (overWeapons weaponAggregates)
      (GroupBy.group (Option.map nameOf) joined name))
    (GroupBy.keys (Option.map nameOf) joined) (some name)
  rw [weaponValue, aggregateStatsByWeapon, aggregateStatsBy, ← reduceOption_leftJoinWeapons,
    ← GroupBy.reduceOption_group nameOf]
  refine (congrArg (fun items => (Option.bind items fun items =>
    valueOf items category).getD 0) hlookup).trans ?_
  split
  · rw [Option.bind_some, aggregateStats_overWeapons, valueOf_aggregateStats h, sumWeapon,
      getD_sumWeapons]
    simp [joined]
  · rename_i hname
    have hnil : GroupBy.group (Option.map nameOf) joined (some name) = [] := by
      rw [List.eq_nil_iff_forall_not_mem]
      intro row hrow
      obtain ⟨hmem, hkey⟩ := GroupBy.mem_group.mp hrow
      exact hname (hkey ▸ GroupBy.key_mem_keys hmem)
    rw [hnil]
    rfl

/-- A weapon figure of the profile is the sum over the names of the qualified weapons. -/
theorem getD_valueOf_weapons {category part : StatCategory} {column : Weapon → ℤ}
    (hplayer : playerAggregates.lookup category = none)
    (hcategory : playerWeaponAggregates.lookup category =
      some (sumWeapons qQualifiedWeapons column))
    (hpart : weaponAggregates.lookup part = some (sumWeapon column)) (db : Database)
    (rows : List PlayerRow) :
    (valueOf (aggregatePlayerStats db rows) category).getD 0 =
      (qualifiedWeapons.map fun name =>
        (weaponValue (aggregateStatsByWeapon db rows) name part).getD 0).sum := by
  have hnodup : qualifiedWeapons.Nodup := by decide
  simp only [getD_weaponValue hpart]
  rw [GroupBy.sum_group hnodup, valueOf, aggregatePlayerStats, List.lookup_append,
    lookup_aggregateStats, lookup_aggregateStats, hplayer, hcategory]
  exact getD_sumWeapons qQualifiedWeapons column _

end Weapons

theorem stats_partition (db : Database) (selected : PlayerRow → Bool) :
    Partitions (aggregateStatsByMap ((all db).filter selected))
      (aggregatePlayerStats db ((all db).filter selected)) ∧
    Partitions (aggregateStatsByServer ((all db).filter selected))
      (aggregatePlayerStats db ((all db).filter selected)) ∧
    Partitions (aggregateStatsByGametype ((all db).filter selected))
      (aggregatePlayerStats db ((all db).filter selected)) ∧
    ∀ figure ∈ [(StatCategory.weaponShots, StatCategory.shots), (.weaponHits, .hits),
        (.weaponKills, .kills)],
      (valueOf (aggregatePlayerStats db ((all db).filter selected)) figure.1).getD 0 =
        (qualifiedWeapons.map fun name => (weaponValue
          (aggregateStatsByWeapon db ((all db).filter selected)) name figure.2).getD 0).sum := by
  have hrows : ∀ row ∈ (all db).filter selected, row ∈ all db := fun row hrow =>
    List.mem_of_mem_filter hrow
  refine ⟨?_, ?_, ?_, ?_⟩
  · exact partitions Game.map hrows fun category h => (lookup_partitioned h).1
  · exact partitions Game.server hrows fun category h => (lookup_partitioned h).2.1
  · exact partitions Game.gametype hrows fun category h => (lookup_partitioned h).2.2
  · intro figure hfigure
    simp only [List.mem_cons, List.not_mem_nil, or_false] at hfigure
    obtain rfl | rfl | rfl := hfigure
    · exact getD_valueOf_weapons rfl rfl rfl db _
    · exact getD_valueOf_weapons rfl rfl rfl db _
    · exact getD_valueOf_weapons rfl rfl rfl db _

end PlayerQuerySet

end Swat4Stats
