import Swat4Stats.StatsManager
import Swat4Stats.Calendar

/-!
# The stats of a profile

The updates of `ProfileManager`: which games a profile was seen in last, and the annual stats over
the games of a year. The aggregates are read first, and then stored in one transaction.
-/

namespace Swat4Stats

set_option autoImplicit false

open Tx PlayerQuerySet StatsManager

namespace ProfileManager

def _getAnnualPeriodForProfile (profile : Profile) (year : ℕ) : Option (Time × Time) :=
  let period := Calendar.statsPeriodForYear year
  if profile.firstSeenAt.any fun firstSeenAt => period.2 < firstSeenAt then
    none
  else if profile.lastSeenAt.any fun lastSeenAt => period.1 > lastSeenAt then
    none
  else
    some period

def _getQualifiedPlayerQuerysetForProfile (profile : ProfileId) (period : Time × Time)
    (db : Database) : List PlayerRow :=
  forPeriod period.1 period.2 (withQualifiedGames (forProfile db profile (all db)))

/-- The group without a weapon has no values, and nothing is saved of it. -/
def weaponItems (perWeaponStats : List (Option Equipment × Items)) : List (Equipment × Items) :=
  perWeaponStats.filterMap fun entry => entry.1.map fun weapon => (weapon, entry.2)

def saveAnnualStats (profile : ProfileId) (year : ℕ) (playerStats : Items)
    (perMapStats : List (MapId × Items)) (perGametypeStats : List (GameType × Items))
    (perServerStats : List (ServerId × Items)) (perWeaponStats : List (Option Equipment × Items)) :
    DbTx Unit := atomic do
  write fun db => { db with
    playerStats := saveStats playerStats profile year StatCategory.legacy db.playerStats }
  write fun db => { db with mapStats := saveGroupedStats perMapStats profile year db.mapStats }
  write fun db => { db with
    gametypeStats := saveGroupedStats perGametypeStats profile year db.gametypeStats }
  write fun db => { db with
    serverStats := saveGroupedStats perServerStats profile year db.serverStats }
  write fun db => { db with
    weaponStats := saveGroupedStats (weaponItems perWeaponStats) profile year db.weaponStats }

def updateAnnualStatsForProfile (profile : Profile) (year : ℕ) : DbTx Unit :=
  match _getAnnualPeriodForProfile profile year with
  | none => pure ()
  | some period => do
    let queryset := _getQualifiedPlayerQuerysetForProfile profile.pk period
    let playerStats ← read fun db => aggregatePlayerStats db (queryset db)
    let perMapStats ← read fun db => aggregateStatsByMap (queryset db)
    let perGametypeStats ← read fun db => aggregateStatsByGametype (queryset db)
    let perServerStats ← read fun db => aggregateStatsByServer (queryset db)
    let perWeaponStats ← read fun db => aggregateStatsByWeapon db (queryset db)
    saveAnnualStats profile.pk year playerStats perMapStats perGametypeStats perServerStats
      perWeaponStats

def updateAnnualServerStatsForProfile (profile : Profile) (server : Server) (year : ℕ) :
    DbTx Unit :=
  match _getAnnualPeriodForProfile profile year with
  | none => pure ()
  | some period => do
    let perServerStats ← read fun db => aggregateStatsByServer
      (forServer server.pk (_getQualifiedPlayerQuerysetForProfile profile.pk period db))
    atomic (write fun db => { db with
      serverStats := saveGroupedStats perServerStats profile.pk year db.serverStats })

/-- `Profile.objects.require_stats_update()`. -/
def requiresStatsUpdate (profile : Profile) : Bool :=
  match profile.firstSeenAt, profile.lastSeenAt with
  | some _, some lastSeenAt =>
    profile.statsUpdatedAt.all fun statsUpdatedAt => lastSeenAt > statsUpdatedAt
  | _, _ => false

def markStatsUpdated (profile : ProfileId) (now : Time) : DbTx Unit :=
  write fun db => { db with
    profiles := db.profiles.update (fun p => p.pk = profile)
      (fun p => { p with statsUpdatedAt := some now }) fun _ => rfl }

def updateLatestAnnualStats (profile : Profile) : DbTx Unit :=
  match profile.lastSeenAt with
  | some lastSeenAt => updateAnnualStatsForProfile profile (Calendar.yearOf lastSeenAt)
  | none => pure ()

def updateStatsForProfile (profile : Profile) (now : Time) : DbTx Unit := do
  updateLatestAnnualStats profile
  markStatsUpdated profile.pk now

/-- `alias__player__game=game` -/
def playedIn (db : Database) (game : GameId) (profile : ProfileId) : Bool :=
  db.aliases.rows.any fun a => a.profile = profile ∧
    db.players.rows.any fun player => player.aliasId = a.pk ∧ player.game = game

def updateFirstGame (game : Game) : DbTx Unit :=
  write fun db => { db with
    profiles := db.profiles.update (fun p => playedIn db game.pk p.pk ∧ p.gameFirst = none)
      (fun p => { p with gameFirst := some game.pk, firstSeenAt := some game.dateFinished })
      fun _ => rfl }

def updateLastGame (game : Game) : DbTx Unit :=
  write fun db => { db with
    profiles := db.profiles.update
      (fun p => playedIn db game.pk p.pk ∧ p.gameLast ≠ some game.pk)
      (fun p => { p with gameLast := some game.pk, lastSeenAt := some game.dateFinished })
      fun _ => rfl }

def updateWithGame (game : Game) : DbTx Unit := atomic do
  updateFirstGame game
  updateLastGame game

end ProfileManager

namespace ProfileManager

/-- The rows of the stats tables of one profile and year, by category and grouping key. -/
inductive StatsKey where
  | player (category : StatCategory)
  | map (category : StatCategory) (map : MapId)
  | gametype (category : StatCategory) (gametype : GameType)
  | server (category : StatCategory) (server : ServerId)
  deriving DecidableEq

def storedPoints (profile : ProfileId) (year : ℕ) (db : Database) : StatsKey → Option ℚ
  | .player category => points? db.playerStats ⟨year, category, profile, category.legacy⟩
  | .map category map => points? db.mapStats ⟨year, category, profile, map⟩
  | .gametype category gametype => points? db.gametypeStats ⟨year, category, profile, gametype⟩
  | .server category server => points? db.serverStats ⟨year, category, profile, server⟩

def groupedPoints {γ : Type} [DecidableEq γ] (groupedItems : List (γ × Items)) (group : γ)
    (category : StatCategory) : Option ℚ :=
  (groupedItems.lookup group).bind fun items => positive items category

/-- The positive aggregates of the year. -/
def annualPoints (profile : ProfileId) (period : Time × Time) (db : Database) :
    StatsKey → Option ℚ :=
  let queryset := _getQualifiedPlayerQuerysetForProfile profile period db
  fun
  | .player category => positive (aggregatePlayerStats db queryset) category
  | .map category map => groupedPoints (aggregateStatsByMap queryset) map category
  | .gametype category gametype =>
    groupedPoints (aggregateStatsByGametype queryset) gametype category
  | .server category server => groupedPoints (aggregateStatsByServer queryset) server category

section Nodup

variable {ρ γ : Type} [DecidableEq γ] {aggregates : Aggregates ρ}

theorem nodup_aggregateStats (h : (aggregates.map Prod.fst).Nodup) (rows : List ρ) :
    ((aggregateStats aggregates rows).map Prod.fst).Nodup := by
  rw [aggregateStats, List.map_map]
  exact h

theorem nodup_aggregateStatsBy (h : (aggregates.map Prod.fst).Nodup) (groupBy : ρ → γ)
    (rows : List ρ) :
    ((aggregateStatsBy aggregates groupBy rows).map Prod.fst).Nodup ∧
      ∀ entry ∈ aggregateStatsBy aggregates groupBy rows, (entry.2.map Prod.fst).Nodup := by
  refine ⟨?_, ?_⟩
  · rw [aggregateStatsBy, List.map_map]
    simpa [Function.comp_def] using List.nodup_dedup _
  · intro entry hentry
    obtain ⟨group, _, rfl⟩ := List.mem_map.mp hentry
    exact nodup_aggregateStats h _

theorem points?_saveGroupedStats_aggregateStatsBy (h : (aggregates.map Prod.fst).Nodup)
    (groupBy : ρ → γ) (rows : List ρ) (profile : ProfileId) (year : ℕ) (t : StatTable γ)
    (category : StatCategory) (group : γ) :
    points? (saveGroupedStats (aggregateStatsBy aggregates groupBy rows) profile year t)
        ⟨year, category, profile, group⟩ =
      (groupedPoints (aggregateStatsBy aggregates groupBy rows) group category).or
        (points? t ⟨year, category, profile, group⟩) := by
  obtain ⟨hgroups, hitems⟩ := nodup_aggregateStatsBy h groupBy rows
  rw [points?_saveGroupedStats hgroups hitems, if_pos ⟨rfl, rfl⟩, groupedPoints]

end Nodup

theorem nodup_serverAggregates : (serverAggregates.map Prod.fst).Nodup := by decide

theorem nodup_aggregatePlayerStats (db : Database) (rows : List PlayerRow) :
    ((aggregatePlayerStats db rows).map Prod.fst).Nodup := by
  have h : (playerAggregates.map Prod.fst ++ playerWeaponAggregates.map Prod.fst).Nodup := by
    decide
  simpa [aggregatePlayerStats, aggregateStats, Function.comp_def] using h

theorem storedPoints_updateAnnualStats (profile : Profile) (year : ℕ) (db : Database)
    (key : StatsKey) :
    storedPoints profile.pk year ((updateAnnualStatsForProfile profile year).run db).2 key =
      match _getAnnualPeriodForProfile profile year with
      | none => storedPoints profile.pk year db key
      | some period =>
        (annualPoints profile.pk period db key).or (storedPoints profile.pk year db key) := by
  rw [updateAnnualStatsForProfile]
  cases _getAnnualPeriodForProfile profile year with
  | none => rfl
  | some period =>
    simp only [run_bind, run_read, saveAnnualStats, run_atomic, run_write]
    cases key with
    | player category =>
      refine (points?_saveStats (nodup_aggregatePlayerStats db _) _ _ _ _ _).trans ?_
      exact if_pos ⟨rfl, rfl, rfl⟩
    | map category map => exact points?_saveGroupedStats_aggregateStatsBy (by decide) _ _ _ _ _ _ _
    | gametype category gametype =>
      exact points?_saveGroupedStats_aggregateStatsBy (by decide) _ _ _ _ _ _ _
    | server category server =>
      exact points?_saveGroupedStats_aggregateStatsBy nodup_serverAggregates _ _ _ _ _ _ _

end ProfileManager

end Swat4Stats
