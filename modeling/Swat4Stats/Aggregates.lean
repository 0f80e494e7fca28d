import Swat4Stats.Database
import Mathlib.Data.List.Dedup
import Mathlib.Data.List.ReduceOption
import Mathlib.Data.Rat.Floor

/-!
# Aggregates of players

`PlayerQuerySet`: the rows of a profile that count, and the dictionaries of SQL aggregates over
them. A column is null where its `CASE` has no branch, and the aggregates pass over nulls. Floats
are exact rational numbers.
-/

namespace Swat4Stats

set_option autoImplicit false

namespace PlayerQuerySet

section Sql

variable {ρ : Type}

def sum (column : ρ → Option ℤ) (rows : List ρ) : Option ℚ :=
  match rows.filterMap column with
  | [] => none
  | values => some (values.sum : ℤ)

def max (column : ρ → Option ℤ) (rows : List ρ) : Option ℚ :=
  (rows.filterMap column).max?.map fun value => (value : ℚ)

def min (column : ρ → Option ℤ) (rows : List ρ) : Option ℚ :=
  (rows.filterMap column).min?.map fun value => (value : ℚ)

def countDistinct (column : ρ → Option ℕ) (rows : List ρ) : Option ℚ :=
  some ((rows.filterMap column).dedup.length : ℕ)

/-- `Round(x, 4)`, halves away from zero. -/
def round4 (x : ℚ) : ℚ :=
  let digits : ℚ := ((|x| * 10000 + 1 / 2).floor : ℤ)
  if x < 0 then -(digits / 10000) else digits / 10000

/-- `Round(as_float(numerator) / NullIf(denominator, 0) * factor, 4)` -/
def ratio (numerator denominator : List ρ → Option ℚ) (factor : ℚ) (rows : List ρ) : Option ℚ :=
  match numerator rows, denominator rows with
  | some n, some d => if d = 0 then none else some (round4 (n / d * factor))
  | _, _ => none

/-- `Case(When(condition, then=column))` -/
def caseWhen {β : Type} (condition : ρ → Bool) (column : ρ → β) (row : ρ) : Option β :=
  if condition row then some (column row) else none

end Sql

structure PlayerRow where
  player : Player
  game : Game

structure WeaponRow where
  player : Player
  game : Game
  weapon : Weapon

def PlayerRow.stat (field : PlayerField) (row : PlayerRow) : ℤ := row.player.stats field

def all (db : Database) : List PlayerRow :=
  db.players.rows.filterMap fun player =>
    (db.games.find? player.game).map fun game => ⟨player, game⟩

def forProfile (db : Database) (profile : ProfileId) (rows : List PlayerRow) : List PlayerRow :=
  rows.filter fun row => db.aliases.rows.any fun a =>
    a.pk = row.player.aliasId ∧ a.profile = profile

def qVersusModes (row : PlayerRow) : Bool := row.game.gametype ∈ GameType.versusModes

def qCoopModes (row : PlayerRow) : Bool := row.game.gametype = .coOp

/-- `TRACKER_MIN_PLAYERS`. -/
def minPlayers : ℤ := 10

def withQualifiedGames (rows : List PlayerRow) : List PlayerRow :=
  rows.filter fun row => row.game.playerNum ≥ minPlayers ∨ qCoopModes row

def forPeriod (startDate endDate : Time) (rows : List PlayerRow) : List PlayerRow :=
  rows.filter fun row => startDate ≤ row.game.dateFinished ∧ row.game.dateFinished ≤ endDate

def forServer (server : ServerId) (rows : List PlayerRow) : List PlayerRow :=
  rows.filter fun row => row.game.server = server

/-- The players without weapons have no row here: every weapon column is null for them. -/
def joinWeapons (db : Database) (rows : List PlayerRow) : List WeaponRow :=
  rows.flatMap fun row =>
    (db.weapons.rows.filter fun weapon => weapon.player = row.player.pk).map fun weapon =>
      ⟨row.player, row.game, weapon⟩

/-- The rows of the left join: a player without weapons has one that has none. -/
def leftJoinWeapons (db : Database) (rows : List PlayerRow) : List (Option WeaponRow) :=
  rows.flatMap fun row =>
    match joinWeapons db [row] with
    | [] => [none]
    | weapons => weapons.map some

section Conditions

def qVipVictories (row : PlayerRow) : Bool :=
  row.player.vip ∧ ∃ outcome ∈ GameOutcome.swatVictories, row.game.outcome = some outcome

def qDrawGames (row : PlayerRow) : Bool := row.game.outcome = some .tie

def teamWithOutcome (team : Team) (outcomes : List GameOutcome) (row : PlayerRow) : Bool :=
  row.player.team = some team ∧ ∃ outcome ∈ outcomes, row.game.outcome = some outcome

def qSwatVictories : PlayerRow → Bool := teamWithOutcome .swat GameOutcome.swatVictories

def qSwatLosses : PlayerRow → Bool := teamWithOutcome .swat GameOutcome.susVictories

def qSusVictories : PlayerRow → Bool := teamWithOutcome .suspects GameOutcome.susVictories

def qSusLosses : PlayerRow → Bool := teamWithOutcome .suspects GameOutcome.swatVictories

def qCoopVictories (row : PlayerRow) : Bool := row.game.outcome = some .coopCompleted

def qCoopLosses (row : PlayerRow) : Bool := row.game.outcome = some .coopFailed

def qVipEscape (row : PlayerRow) : Bool :=
  row.player.vip ∧ row.stat .vipEscapes = 1 ∧ row.game.playerNum ≥ 14

def qualifiedWeapons : List Equipment :=
  [.m4Super90, .novaPump, .shotgun, .coltM4a1Carbine, .ak47Machinegun, .gb36sAssaultRifle,
    .galSubMachinegun, ._9mmSmg, .suppressed9mmSmg, ._45Smg, .m1911Handgun, ._9mmHandgun,
    .coltPython, .vipColtM1911Handgun, .coltAccurizedRifle, ._556mmLightMachineGun,
    ._57x28mmSubmachineGun, .mark19SemiAutomaticPistol, ._9mmMachinePistol]

def grenades : List Equipment := [.stinger, .csGas, .flashbang]

def qQualifiedWeapons (row : WeaponRow) : Bool := row.weapon.name ∈ qualifiedWeapons

def qQualifiedGrenades (row : WeaponRow) : Bool := row.weapon.name ∈ grenades

end Conditions

/-- A dictionary of aggregates. -/
abbrev Aggregates (ρ : Type) := List (StatCategory × (List ρ → Option ℚ))

def sumVersus (field : PlayerField) : List PlayerRow → Option ℚ :=
  sum (caseWhen qVersusModes (PlayerRow.stat field))

def maxVersus (field : PlayerField) : List PlayerRow → Option ℚ :=
  max (caseWhen qVersusModes (PlayerRow.stat field))

def sumAll (field : PlayerField) : List PlayerRow → Option ℚ :=
  sum fun row => some (row.stat field)

def countGames (condition : PlayerRow → Bool) : List PlayerRow → Option ℚ :=
  countDistinct (caseWhen condition fun row => row.game.pk)

def countPlayers (condition : PlayerRow → Bool) : List PlayerRow → Option ℚ :=
  countDistinct (caseWhen condition fun row => row.player.pk)

def _aggPlayerScore : List PlayerRow → Option ℚ := sumVersus .score

def _aggPlayerTime : List PlayerRow → Option ℚ := sumVersus .time

def _aggPlayerGames : List PlayerRow → Option ℚ := countGames qVersusModes

def _aggPlayerKills : List PlayerRow → Option ℚ := sumVersus .kills

def _aggPlayerDeaths : List PlayerRow → Option ℚ := sumVersus .deaths

def spmRatio : List PlayerRow → Option ℚ := ratio _aggPlayerScore _aggPlayerTime 60

def sprRatio : List PlayerRow → Option ℚ := ratio _aggPlayerScore _aggPlayerGames 1

def kdRatio : List PlayerRow → Option ℚ := ratio _aggPlayerKills _aggPlayerDeaths 1

def sumWeapons (condition : WeaponRow → Bool) (column : Weapon → ℤ) :
    List WeaponRow → Option ℚ :=
  sum (caseWhen condition fun row => column row.weapon)

/-- `player_aggregates[0]` -/
def playerAggregates : Aggregates PlayerRow :=
  [(.score, _aggPlayerScore),
    (.topScore, maxVersus .score),
    (.time, _aggPlayerTime),
    (.games, _aggPlayerGames),
    (.wins, countGames fun row => qSwatVictories row || qSusVictories row),
    (.losses, countGames fun row => qSwatLosses row || qSusLosses row),
    (.draws, countGames qDrawGames),
    (.spmRatio, spmRatio),
    (.sprRatio, sprRatio),
    (.kills, _aggPlayerKills),
    (.teamkills, sumVersus .teamkills),
    (.topKills, maxVersus .kills),
    (.arrests, sumVersus .arrests),
    (.topArrests, maxVersus .arrests),
    (.arrested, sumVersus .arrested),
    (.deaths, _aggPlayerDeaths),
    (.topKillStreak, maxVersus .killStreak),
    (.topArrestStreak, maxVersus .arrestStreak),
    (.topDeathStreak, maxVersus .deathStreak),
    (.kdRatio, kdRatio)]

def weaponRatio (condition : WeaponRow → Bool) (column : Weapon → ℤ) :
    List WeaponRow → Option ℚ :=
  ratio (sumWeapons condition column) (sumWeapons condition Weapon.shots) 1

/-- `player_aggregates[1]` -/
def playerWeaponAggregates : Aggregates WeaponRow :=
  [(.weaponShots, sumWeapons qQualifiedWeapons Weapon.shots),
    (.weaponHits, sumWeapons qQualifiedWeapons Weapon.hits),
    (.weaponKills, sumWeapons qQualifiedWeapons Weapon.kills),
    (.weaponTeamhits, sumWeapons qQualifiedWeapons Weapon.teamhits),
    (.weaponHitRatio, weaponRatio qQualifiedWeapons Weapon.hits),
    (.weaponKillRatio, weaponRatio qQualifiedWeapons Weapon.kills),
    (.weaponTeamhitRatio, weaponRatio qQualifiedWeapons Weapon.teamhits),
    (.grenadeShots, sumWeapons qQualifiedGrenades Weapon.shots),
    (.grenadeHits, sumWeapons qQualifiedGrenades Weapon.hits),
    (.grenadeKills, sumWeapons qQualifiedGrenades Weapon.kills),
    (.grenadeTeamhits, sumWeapons qQualifiedGrenades Weapon.teamhits),
    (.grenadeHitRatio, weaponRatio qQualifiedGrenades Weapon.hits),
    (.grenadeTeamhitRatio, weaponRatio qQualifiedGrenades Weapon.teamhits)]

def gametypeAggregates : Aggregates PlayerRow :=
  [(.score, _aggPlayerScore),
    (.topScore, maxVersus .score),
    (.time, _aggPlayerTime),
    (.games, _aggPlayerGames),
    (.wins, countGames fun row => qSwatVictories row || qSusVictories row),
    (.losses, countGames fun row => qSwatLosses row || qSusLosses row),
    (.draws, countGames qDrawGames),
    (.kills, _aggPlayerKills),
    (.arrests, sumVersus .arrests),
    (.topKillStreak, maxVersus .killStreak),
    (.topArrestStreak, maxVersus .arrestStreak),
    (.spmRatio, spmRatio),
    (.sprRatio, sprRatio),
    -- vip related stats
    (.vipEscapes, sumAll .vipEscapes),
    (.vipCaptures, sumAll .vipCaptures),
    (.vipRescues, sumAll .vipRescues),
    (.vipKillsValid, sumAll .vipKillsValid),
    (.vipKillsInvalid, sumAll .vipKillsInvalid),
    (.vipTimes, countPlayers fun row => row.player.vip),
    (.vipWins, countPlayers qVipVictories),
    -- rd stats
    (.rdBombsDefused, sumAll .rdBombsDefused),
    -- sg stats
    (.sgEscapes, sumAll .sgEscapes),
    (.sgKills, sumAll .sgKills),
    -- COOP stats
    (.coopScore, sum fun row => some row.game.coopScore),
    (.coopTopScore, max fun row => some row.game.coopScore),
    (.coopTime, sum (caseWhen qCoopModes fun row => row.game.time)),
    (.coopGames, countGames qCoopModes),
    (.coopWins, countGames qCoopVictories),
    (.coopLosses, countGames qCoopLosses),
    (.coopHostageArrests, sumAll .coopHostageArrests),
    (.coopHostageHits, sumAll .coopHostageHits),
    (.coopHostageIncaps, sumAll .coopHostageIncaps),
    (.coopHostageKills, sumAll .coopHostageKills),
    (.coopEnemyArrests, sumAll .coopEnemyArrests),
    (.coopEnemyIncaps, sumAll .coopEnemyIncaps),
    (.coopEnemyKills, sumAll .coopEnemyKills),
    (.coopEnemyIncapsInvalid, sumAll .coopEnemyIncapsInvalid),
    (.coopEnemyKillsInvalid, sumAll .coopEnemyKillsInvalid),
    (.coopTocReports, sumAll .coopTocReports)]

def sumWeapon (column : Weapon → ℤ) : List WeaponRow → Option ℚ :=
  sumWeapons (fun _ => true) column

def weaponAggregates : Aggregates WeaponRow :=
  [(.shots, sumWeapon Weapon.shots),
    (.time, sumWeapon Weapon.time),
    (.hits, sumWeapon Weapon.hits),
    (.teamhits, sumWeapon Weapon.teamhits),
    (.kills, sumWeapon Weapon.kills),
    (.teamkills, sumWeapon Weapon.teamkills),
    (.hitRatio, weaponRatio (fun _ => true) Weapon.hits),
    (.killRatio, weaponRatio (fun _ => true) Weapon.kills),
    (.teamhitRatio, weaponRatio (fun _ => true) Weapon.teamhits)]

def serverAggregates : Aggregates PlayerRow :=
  [(.score, _aggPlayerScore),
    (.time, _aggPlayerTime),
    (.games, _aggPlayerGames),
    (.kills, _aggPlayerKills),
    (.deaths, _aggPlayerDeaths),
    (.arrests, sumVersus .arrests),
    (.spmRatio, spmRatio),
    (.sprRatio, sprRatio),
    (.topKillStreak, maxVersus .killStreak),
    (.topArrestStreak, maxVersus .arrestStreak),
    (.kdRatio, kdRatio),
    (.coopScore, sum (caseWhen qCoopModes fun row => row.game.coopScore)),
    (.coopGames, countGames qCoopModes),
    (.coopTime, sum (caseWhen qCoopModes fun row => row.game.time))]

def mapAggregates : Aggregates PlayerRow :=
  serverAggregates ++
    [(.topScore, maxVersus .score),
      (.wins, countGames fun row => qSwatVictories row || qSusVictories row),
      (.losses, countGames fun row => qSwatLosses row || qSusLosses row),
      (.draws, countGames qDrawGames),
      (.coopTopScore, max (caseWhen qCoopModes fun row => row.game.coopScore)),
      (.coopWins, countGames qCoopVictories),
      (.coopLosses, countGames qCoopLosses),
      (.coopBestTime, min (caseWhen qCoopVictories fun row => row.game.time)),
      (.coopWorstTime, max (caseWhen qCoopVictories fun row => row.game.time)),
      (.vipEscapeTime, min (caseWhen qVipEscape (PlayerRow.stat .time)))]

/-- A category and its value, null if the aggregate has nothing to go by. -/
abbrev Items := List (StatCategory × Option ℚ)

section Queries

variable {ρ γ : Type} [DecidableEq γ]

def aggregateStats (aggregates : Aggregates ρ) (rows : List ρ) : Items :=
  aggregates.map fun entry => (entry.1, entry.2 rows)

/-- `GROUP BY`: one dictionary for each value of the grouping key that the rows have. -/
def aggregateStatsBy (aggregates : Aggregates ρ) (groupBy : ρ → γ) (rows : List ρ) :
    List (γ × Items) :=
  (rows.map groupBy).dedup.map fun group =>
    (group, aggregateStats aggregates (rows.filter fun row => groupBy row = group))

end Queries

def aggregatePlayerStats (db : Database) (rows : List PlayerRow) : Items :=
  let versus := rows.filter qVersusModes
  aggregateStats playerAggregates versus ++
    aggregateStats playerWeaponAggregates (joinWeapons db versus)

def aggregateStatsByMap (rows : List PlayerRow) : List (MapId × Items) :=
  aggregateStatsBy mapAggregates (fun row => row.game.map) rows

def aggregateStatsByGametype (rows : List PlayerRow) : List (GameType × Items) :=
  aggregateStatsBy gametypeAggregates (fun row => row.game.gametype) rows

def aggregateStatsByServer (rows : List PlayerRow) : List (ServerId × Items) :=
  aggregateStatsBy serverAggregates (fun row => row.game.server) rows

/-- Aggregates over the rows of a left join, where they leave out those with no weapon. -/
def overWeapons (aggregates : Aggregates WeaponRow) : Aggregates (Option WeaponRow) :=
  aggregates.map fun entry => (entry.1, fun rows => entry.2 rows.reduceOption)

/-- The players without weapons are a group of their own, under no name. -/
def aggregateStatsByWeapon (db : Database) (rows : List PlayerRow) :
    List (Option Equipment × Items) :=
  aggregateStatsBy (overWeapons weaponAggregates) (fun row => row.map fun row => row.weapon.name)
    (leftJoinWeapons db (rows.filter qVersusModes))

end PlayerQuerySet

end Swat4Stats
