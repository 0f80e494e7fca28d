import Swat4Stats.Calendar
import Swat4Stats.Entities
import Swat4Stats.Library.Table
import Swat4Stats.Library.Text
import Swat4Stats.Library.Transaction
import Swat4Stats.Library.UniqueTable
import Swat4Stats.SearchVector
import Mathlib.Data.Rat.Init

/-!
# The database of the tracker

The models of `apps.tracker` and `apps.geoip` as tables. A row has the columns that the modelled
managers read or write; a foreign key is the primary key of the row it points to. The unique
constraints other than the primary keys are checked where rows are inserted.
-/

namespace Swat4Stats

set_option autoImplicit false

abbrev ServerId := ℕ
abbrev GameId := ℕ
abbrev MapId := ℕ
abbrev ProfileId := ℕ
abbrev AliasId := ℕ
abbrev IspId := ℕ
abbrev PlayerId := ℕ
abbrev LoadoutId := ℕ

/-- An IPv4 address as the integer `int(IPv4Address(...))`. -/
abbrev IPv4 := ℕ

/-- What a `CharField` of that length takes. Postgres has no text with a NUL in it. -/
def FitsColumn (maxLength : ℕ) (text : Text) : Prop :=
  text.length ≤ maxLength ∧ Char.ofNat 0 ∉ text

instance (maxLength : ℕ) (text : Text) : Decidable (FitsColumn maxLength text) :=
  inferInstanceAs (Decidable (_ ∧ _))

structure GameStats where
  gameCount : ℕ := 0
  firstGame : Option GameId := none
  firstGamePlayedAt : Option Time := none
  latestGame : Option GameId := none
  latestGamePlayedAt : Option Time := none
  deriving DecidableEq, Repr

structure Server where
  pk : ServerId
  ip : IPv4
  port : ℕ
  enabled : Bool := true
  version : Option String := none
  stats : GameStats := {}
  rating : Option ℕ := none
  ratingUpdatedAt : Option Time := none
  mergedInto : Option ServerId := none
  mergedIntoAt : Option Time := none
  mergedStatsAt : Option Time := none
  listed : Bool := false
  failures : ℕ := 0
  hostname : Option Text := none
  hostnameClean : Option Text := none
  hostnameUpdatedAt : Option Time := none
  search : Option SearchVector := none
  searchUpdatedAt : Option Time := none
  deriving DecidableEq, Repr

structure GameMap where
  pk : MapId
  name : String
  slug : String
  stats : GameStats := {}
  deriving DecidableEq, Repr

structure Game where
  pk : GameId
  server : ServerId
  tag : Option String
  dateFinished : Time
  gametype : GameType
  gametypeLegacy : ℤ
  map : MapId
  mapname : ℤ
  outcome : Option GameOutcome
  outcomeLegacy : ℤ
  time : ℤ
  playerNum : ℤ
  scoreSwat : ℤ
  scoreSus : ℤ
  victSwat : ℤ
  victSus : ℤ
  rdBombsDefused : ℤ
  rdBombsTotal : ℤ
  coopScore : ℤ
  coopRank : Option CoopRank
  deriving DecidableEq, Repr

/-- The game that the examples vary. -/
def sampleGame : Game where
  pk := 0
  server := 1
  tag := none
  dateFinished := 0
  gametype := .barricadedSuspects
  gametypeLegacy := 0
  map := 1
  mapname := 0
  outcome := none
  outcomeLegacy := 0
  time := 600
  playerNum := 16
  scoreSwat := 0
  scoreSus := 0
  victSwat := 0
  victSus := 0
  rdBombsDefused := 0
  rdBombsTotal := 0
  coopScore := 0
  coopRank := none

def Game.isCoopGame (game : Game) : Bool :=
  game.gametype ∈ [GameType.coOp, GameType.coOpQmm]

structure Procedure where
  pk : ℕ
  game : GameId
  name : CoopProcedure
  nameLegacy : ℤ
  status : String
  score : ℤ
  deriving DecidableEq, Repr

structure Objective where
  pk : ℕ
  game : GameId
  name : String
  nameLegacy : ℤ
  status : CoopObjectiveStatus
  statusLegacy : ℤ
  deriving DecidableEq, Repr

/-- The twelve slots of a loadout, with equipment values of type `E` and ammo values of type `A`:
the names in the current columns, integers in the legacy ones. -/
structure LoadoutSlots (E A : Type) where
  primary : E
  primaryAmmo : A
  secondary : E
  secondaryAmmo : A
  equipOne : E
  equipTwo : E
  equipThree : E
  equipFour : E
  equipFive : E
  breacher : E
  body : E
  head : E
  deriving DecidableEq, Repr

structure Loadout where
  pk : LoadoutId
  slots : LoadoutSlots Equipment Ammo
  legacy : LoadoutSlots ℤ ℤ
  deriving DecidableEq, Repr

/-- The integer columns of `Player`, in the order of the `fields` that a payload may set. -/
inductive PlayerField where
  | score | time | kills | teamkills | deaths | suicides | arrests | arrested | killStreak
  | arrestStreak | deathStreak | vipCaptures | vipRescues | vipEscapes | vipKillsValid
  | vipKillsInvalid | rdBombsDefused | sgEscapes | sgKills | coopHostageArrests
  | coopHostageHits | coopHostageIncaps | coopHostageKills | coopEnemyArrests
  | coopEnemyIncaps | coopEnemyKills | coopEnemyIncapsInvalid | coopEnemyKillsInvalid
  | coopTocReports
  deriving DecidableEq, Repr

structure Player where
  pk : PlayerId
  game : GameId
  aliasId : AliasId
  loadout : LoadoutId
  ip : IPv4
  team : Option Team := none
  teamLegacy : Option ℤ := none
  coopStatus : Option CoopStatus := none
  coopStatusLegacy : ℤ := 0
  vip : Bool := false
  admin : Bool := false
  dropped : Bool := false
  stats : PlayerField → ℤ := fun _ => 0

structure Weapon where
  pk : ℕ
  player : PlayerId
  name : Equipment
  nameLegacy : ℤ
  time : ℤ
  shots : ℤ
  hits : ℤ
  teamhits : ℤ
  kills : ℤ
  teamkills : ℤ
  distance : ℚ
  deriving DecidableEq, Repr

structure Alias where
  pk : AliasId
  name : Text
  profile : ProfileId
  isp : Option IspId
  createdAt : Time
  updatedAt : Time
  deriving DecidableEq, Repr

structure Profile where
  pk : ProfileId
  name : Option Text
  gameFirst : Option GameId := none
  gameLast : Option GameId := none
  firstSeenAt : Option Time := none
  lastSeenAt : Option Time := none
  statsUpdatedAt : Option Time := none
  aliasUpdatedAt : Option Time := none
  team : Option Team := none
  teamLegacy : Option ℤ := none
  country : Option String := none
  loadout : Option LoadoutId := none
  preferencesUpdatedAt : Option Time := none
  names : Option (List Text) := none
  namesUpdatedAt : Option Time := none
  search : Option SearchVector := none
  searchUpdatedAt : Option Time := none
  deriving DecidableEq, Repr

structure Isp where
  pk : IspId
  name : Option String
  country : Option String
  deriving DecidableEq, Repr

/-- `apps.geoip.models.IP`: a range of addresses and the provider it belongs to. -/
structure IpRange where
  pk : ℕ
  isp : Option IspId
  rangeFrom : ℕ
  rangeTo : ℕ
  deriving DecidableEq, Repr

/-- A row of one of the stats tables. `group` is what the table groups by besides the category:
the map, the gametype or the server, and the legacy category code for `PlayerStats`. -/
structure Stat (γ : Type) where
  pk : ℕ
  category : StatCategory
  year : ℕ
  profile : ProfileId
  group : γ
  points : ℚ
  position : Option ℕ := none
  deriving DecidableEq, Repr

structure StatKey (γ : Type) where
  year : ℕ
  category : StatCategory
  profile : ProfileId
  group : γ
  deriving DecidableEq, Repr

/-- `unique_db_fields`. -/
def Stat.key {γ : Type} (row : Stat γ) : StatKey γ :=
  ⟨row.year, row.category, row.profile, row.group⟩

abbrev StatTable (γ : Type) := UniqueTable (Stat γ) Stat.pk Stat.key

theorem Game.withPk_pk (game : Game) (pk : GameId) : { game with pk }.pk = pk := rfl

theorem Weapon.withPk_pk (weapon : Weapon) (pk : ℕ) : { weapon with pk }.pk = pk := rfl

structure Database where
  servers : Table Server Server.pk
  games : Table Game Game.pk
  maps : Table GameMap GameMap.pk
  procedures : Table Procedure Procedure.pk
  objectives : Table Objective Objective.pk
  loadouts : Table Loadout Loadout.pk
  players : Table Player Player.pk
  weapons : Table Weapon Weapon.pk
  aliases : Table Alias Alias.pk
  profiles : Table Profile Profile.pk
  isps : Table Isp Isp.pk
  ipRanges : Table IpRange IpRange.pk
  playerStats : StatTable ℕ
  mapStats : StatTable MapId
  gametypeStats : StatTable GameType
  serverStats : StatTable ServerId
  weaponStats : StatTable Equipment

inductive TrackerError where
  | mergeServersError (message : String)
  | gameAlreadySavedError
  | integrityError (constraint : String)
  | objectDoesNotExist
  | multipleObjectsReturned
  | valueError (message : String)
  | addressValueError (address : Text)
  | keyError (key : String)
  | apiError (message : String)
  | dataError (column : String)
  deriving DecidableEq, Repr

abbrev DbTx (α : Type) := Tx Database TrackerError α

/-- `get_or_create` for a model whose objects the query finds by their unique columns. -/
def getOrCreate {α : Type} (select : Database → List α) (pk : α → ℕ) (create : DbTx ℕ) :
    DbTx (ℕ × Bool) := do
  let found ← Tx.read select
  match found with
  | [] => do
    let created ← Tx.atomic create
    pure (created, true)
  | [x] => pure (pk x, false)
  | _ => Tx.raise .multipleObjectsReturned

theorem keeps_getOrCreate {α : Type} {γ : Type*} {f : Database → γ}
    {select : Database → List α} {pk : α → ℕ} {create : DbTx ℕ} (hcreate : Tx.Keeps f create) :
    Tx.Keeps f (getOrCreate select pk create) := by
  refine Tx.Keeps.read.bind fun found => ?_
  match found with
  | [] => exact hcreate.atomic.bind fun _ => Tx.Keeps.pure
  | [x] => exact Tx.Keeps.pure
  | _ :: _ :: _ => exact Tx.Keeps.raise

def Database.empty : Database where
  servers := Table.empty
  games := Table.empty
  maps := Table.empty
  procedures := Table.empty
  objectives := Table.empty
  loadouts := Table.empty
  players := Table.empty
  weapons := Table.empty
  aliases := Table.empty
  profiles := Table.empty
  isps := Table.empty
  ipRanges := Table.empty
  playerStats := UniqueTable.empty
  mapStats := UniqueTable.empty
  gametypeStats := UniqueTable.empty
  serverStats := UniqueTable.empty
  weaponStats := UniqueTable.empty

end Swat4Stats
