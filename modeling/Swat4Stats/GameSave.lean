import Swat4Stats.Aliases
import Swat4Stats.Schema

/-!
# Saving a game

`GameManager.create_game` with the helpers it calls, and the task that runs it. A report is saved
in one transaction; the insertion of the game row has a savepoint of its own, so that a tag that
is there already is told from every other failure.
-/

namespace Swat4Stats

set_option autoImplicit false

open Tx

/-- `if xs:` for a key that may be missing. -/
def ifAny {β : Type} (xs : Option (List β)) (body : List β → DbTx Unit) : DbTx Unit :=
  match xs with
  | none | some [] => pure ()
  | some (x :: xs) => body (x :: xs)

namespace MapManager

def create (outside : External) (name : String) : DbTx MapId :=
  statement fun db => .ok (db.maps.nextPk,
    { db with
      maps := db.maps.create (fun pk => { pk, name, slug := outside.slugify name }) fun _ => rfl })

def obtainFor (outside : External) (name : String) : DbTx MapId := do
  let (map, _) ← getOrCreate (fun db => db.maps.rows.filter fun map => map.name = name) GameMap.pk
    (create outside name)
  pure map

end MapManager

def LoadoutSlots.map {E A E' A' : Type} (f : E → E') (g : A → A') (slots : LoadoutSlots E A) :
    LoadoutSlots E' A' where
  primary := f slots.primary
  primaryAmmo := g slots.primaryAmmo
  secondary := f slots.secondary
  secondaryAmmo := g slots.secondaryAmmo
  equipOne := f slots.equipOne
  equipTwo := f slots.equipTwo
  equipThree := f slots.equipThree
  equipFour := f slots.equipFour
  equipFive := f slots.equipFive
  breacher := f slots.breacher
  body := f slots.body
  head := f slots.head

namespace LoadoutManager

def empty : LoadoutSlots Equipment Ammo :=
  ⟨.none, .none, .none, .none, .none, .none, .none, .none, .none, .none, .none, .none⟩

def create (slots : LoadoutSlots Equipment Ammo) : DbTx LoadoutId :=
  statement fun db => .ok (db.loadouts.nextPk,
    { db with
      loadouts := db.loadouts.create
        (fun pk => { pk, slots, legacy := slots.map Equipment.legacy Ammo.legacy })
        fun _ => rfl })

def obtain (loadout : Option (LoadoutSlots Equipment Ammo)) : DbTx LoadoutId := do
  let slots := loadout.getD empty
  let (obj, _) ← getOrCreate (fun db => db.loadouts.rows.filter fun row => row.slots = slots)
    Loadout.pk (create slots)
  pure obj

end LoadoutManager

namespace GameManager

/-- No bound stands for minus infinity. -/
def coopMinScoreForRank : List (Option ℤ × CoopRank) :=
  [(some 100, .chiefInspector), (some 95, .inspector), (some 90, .captain), (some 85, .lieutenant),
    (some 80, .sergeant), (some 75, .patrolOfficer), (some 70, .reserveOfficer),
    (some 60, .nonSwornOfficer), (some 50, .recruit), (some 35, .washout), (some 20, .vigilante),
    (none, .menace)]

def calculateCoopRankForScore (score : ℤ) : Option CoopRank :=
  (coopMinScoreForRank.find? fun entry => entry.1.all fun minScore => minScore ≤ score).map
    Prod.snd

def _calculateCoopScoreForProcedures (procedures : Option (List ProcedureItem)) : ℤ :=
  match procedures with
  | none | some [] => 0
  | some procedures => min 100 (procedures.map ProcedureItem.score).sum

/-- The game before it has a primary key. -/
def newGame (server : ServerId) (data : GameData) (dateFinished : Time) (map : MapId) : Game where
  pk := 0
  server := server
  tag := some data.tag
  dateFinished := dateFinished
  gametype := data.gametype
  gametypeLegacy := data.gametype.legacy
  map := map
  mapname := Schema.mapnamesReversed data.mapname
  outcome := data.outcome
  outcomeLegacy := GameOutcome.legacy data.outcome
  time := data.time
  playerNum := data.playerNum
  scoreSwat := data.scoreSwat
  scoreSus := data.scoreSus
  victSwat := data.victSwat
  victSus := data.victSus
  rdBombsDefused := data.bombsDefused
  rdBombsTotal := data.bombsTotal
  coopScore :=
    if data.gametype.isCoop then _calculateCoopScoreForProcedures data.coopProcedures else 0
  coopRank :=
    if data.gametype.isCoop then
      calculateCoopRankForScore (_calculateCoopScoreForProcedures data.coopProcedures)
    else
      none

/-- The tags of the games are unique; null is not a tag. -/
def create (game : Game) : DbTx Game :=
  statement fun db =>
    if game.tag ≠ none ∧ ∃ row ∈ db.games.rows, row.tag = game.tag then
      .error (.integrityError "tracker_game_tag_key")
    else
      .ok ({ game with pk := db.games.nextPk },
        { db with games := db.games.create (fun pk => { game with pk }) game.withPk_pk })

def createAtomically (outside : External) (server : ServerId) (data : GameData)
    (dateFinished : Time) : DbTx Game := atomic do
  let map ← MapManager.obtainFor outside data.mapname
  create (newGame server data dateFinished map)

def createUnlessSaved (outside : External) (server : ServerId) (data : GameData)
    (dateFinished : Time) : DbTx Game :=
  rescue (createAtomically outside server data dateFinished) fun
    | .raised (.integrityError _) => raise .gameAlreadySavedError
    | e => rethrow e

def newProcedure (game : Game) (item : ProcedureItem) : Procedure where
  pk := 0
  game := game.pk
  name := item.name
  nameLegacy := item.name.legacy
  status := item.status
  score := item.score

def _createGameProcedures (game : Game) (procedures : List ProcedureItem) : DbTx Unit :=
  write fun db => { db with
    procedures := db.procedures.createAll (fun row pk => { row with pk }) (fun _ _ => rfl)
      (procedures.map (newProcedure game)) }

def newObjective (game : Game) (item : ObjectiveItem) : Except TrackerError Objective := do
  let nameLegacy ← Schema.objectivesReversed item.name
  pure { pk := 0, game := game.pk, name := item.name, nameLegacy, status := item.status,
         statusLegacy := item.status.legacy }

def _createGameObjectives (game : Game) (objectives : List ObjectiveItem) : DbTx Unit :=
  match objectives.mapM (newObjective game) with
  | .error e => raise e
  | .ok rows => write fun db => { db with
      objectives := db.objectives.createAll (fun row pk => { row with pk }) (fun _ _ => rfl) rows }

def newPlayer (game : Game) (aliasId : AliasId) (loadout : LoadoutId) (ip : IPv4)
    (item : PlayerItem) : Player where
  pk := 0
  game := game.pk
  aliasId := aliasId
  loadout := loadout
  ip := ip
  team := some item.team
  teamLegacy := some item.team.legacy
  coopStatus := item.coopStatus.join
  coopStatusLegacy := (item.coopStatus.map CoopStatus.legacy).getD 0
  vip := item.vip.getD false
  admin := item.admin
  dropped := item.dropped
  stats field := (item.stats field).getD 0

def savePlayer (player : Player) : DbTx PlayerId :=
  statement fun db => .ok (db.players.nextPk,
    { db with players := db.players.create (fun pk => { player with pk }) fun _ => rfl })

def newWeapon (player : PlayerId) (item : WeaponItem) (name : Equipment) :
    Except TrackerError Weapon := do
  let nameLegacy ← Schema.weaponReversed name
  -- convert cm to meters
  pure { pk := 0, player, name, nameLegacy, time := item.time, shots := item.shots,
         hits := item.hits, teamhits := item.teamhits, kills := item.kills,
         teamkills := item.teamkills, distance := item.distance / 100 }

/-- The weapons without a known code are left out. -/
def newWeapons (player : PlayerId) (items : List WeaponItem) : Except TrackerError (List Weapon) :=
  (items.filterMap fun item => item.name.map fun name => (item, name)).mapM fun known =>
    newWeapon player known.1 known.2

def createWeapons (player : PlayerId) (items : List WeaponItem) : DbTx Unit :=
  match newWeapons player items with
  | .error e => raise e
  | .ok rows => write fun db => { db with
      weapons := db.weapons.createAll (fun row pk => { row with pk }) Weapon.withPk_pk rows }

/-- Coop games have no weapons. -/
def createPlayerWeapons (game : Game) (player : PlayerId) (weapons : Option (List WeaponItem)) :
    DbTx Unit :=
  if game.isCoopGame then pure () else ifAny weapons (createWeapons player)

def createGamePlayer (outside : External) (env : LookupEnv) (game : Game) (item : PlayerItem) :
    DbTx Unit :=
  -- handle empty and coloured names
  match forceName outside item.name item.ip, parseIPv4 item.ip with
  | some aliasName, some ip => do
    let (aliasId, _) ← AliasManager.matchOrCreate outside env aliasName item.ip
    let loadout ← LoadoutManager.obtain item.loadout
    let player ← savePlayer (newPlayer game aliasId loadout ip item)
    createPlayerWeapons game player item.weapons
  | _, _ => raise (.addressValueError item.ip)

/-- Each player has a lookup of its own. -/
def _createGamePlayers (outside : External) (envs : ℕ → LookupEnv) (game : Game)
    (players : List PlayerItem) : DbTx Unit :=
  forEach players.zipIdx fun (item, index) => createGamePlayer outside (envs index) game item

def createGame (outside : External) (envs : ℕ → LookupEnv) (server : ServerId) (data : GameData)
    (dateFinished : Time) : DbTx Game := atomic do
  let game ← createUnlessSaved outside server data dateFinished
  -- now save rest of the data
  ifAny data.coopProcedures (_createGameProcedures game)
  ifAny data.coopObjectives (_createGameObjectives game)
  ifAny data.players (_createGamePlayers outside envs game)
  pure game

end GameManager

namespace Tasks

inductive TaskOutcome where
  | saved (game : Game)
  | alreadySaved
  | retry (e : Failure TrackerError)

def handleCreateError : Failure TrackerError → DbTx TaskOutcome
  | .raised .gameAlreadySavedError => pure .alreadySaved
  | e => pure (.retry e)

def createGameOrRetry (outside : External) (envs : ℕ → LookupEnv) (server : ServerId)
    (data : GameData) (dataReceivedAt : Time) : DbTx TaskOutcome :=
  rescue
    (do
      let game ← GameManager.createGame outside envs server data dataReceivedAt
      pure (.saved game))
    handleCreateError

def processGameData (outside : External) (envs : ℕ → LookupEnv) (serverId : ServerId)
    (data : GameData) (dataReceivedAt : Time) : DbTx TaskOutcome := do
  let server ← read fun db => db.servers.find? serverId
  match server with
  | none => raise .objectDoesNotExist
  | some server => createGameOrRetry outside envs server.pk data dataReceivedAt

end Tasks

end Swat4Stats
