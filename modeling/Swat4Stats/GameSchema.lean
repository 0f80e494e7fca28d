import Swat4Stats.Encodings
import Swat4Stats.Library.Voluptuous
import Swat4Stats.Database

/-!
# The schema of a game report

`game_schema`: the decoded body of a streamed game, with numbers for its keys, and the report that
is made from it. A key that the top level does not name is an error, further down it is dropped.
-/

namespace Swat4Stats

set_option autoImplicit false

namespace Schema

open Voluptuous

def playerKey : PlayerField → String
  | .time => "7"
  | .score => "8"
  | .kills => "9"
  | .teamkills => "10"
  | .deaths => "11"
  | .suicides => "12"
  | .arrests => "13"
  | .arrested => "14"
  | .killStreak => "15"
  | .arrestStreak => "16"
  | .deathStreak => "17"
  | .vipCaptures => "18"
  | .vipRescues => "19"
  | .vipEscapes => "20"
  | .vipKillsValid => "21"
  | .vipKillsInvalid => "22"
  | .rdBombsDefused => "23"
  | .sgKills => "25"
  | .sgEscapes => "26"
  | .coopHostageArrests => "28"
  | .coopHostageHits => "29"
  | .coopHostageIncaps => "30"
  | .coopHostageKills => "31"
  | .coopEnemyArrests => "32"
  | .coopEnemyIncaps => "33"
  | .coopEnemyKills => "34"
  | .coopEnemyIncapsInvalid => "35"
  | .coopEnemyKillsInvalid => "36"
  | .coopTocReports => "37"

def playerValidator : PlayerField → Validator ℤ
  | .score => int
  | _ => positiveInt

def playerFields : List PlayerField :=
  [.time, .score, .kills, .teamkills, .deaths, .suicides, .arrests, .arrested, .killStreak,
    .arrestStreak, .deathStreak, .vipCaptures, .vipRescues, .vipEscapes, .vipKillsValid,
    .vipKillsInvalid, .rdBombsDefused, .sgKills, .sgEscapes, .coopHostageArrests,
    .coopHostageHits, .coopHostageIncaps, .coopHostageKills, .coopEnemyArrests, .coopEnemyIncaps,
    .coopEnemyKills, .coopEnemyIncapsInvalid, .coopEnemyKillsInvalid, .coopTocReports]

def objectiveItem : Validator ObjectiveItem := fun value => do
  let d ← dict value
  let name ← required d "0" (mapping int objectivesEncoded)
  let status ← withDefault d "1" (.int 0) (mapping int objectiveStatusEncoded)
  pure { name, status }

def procedureItem : Validator ProcedureItem := fun value => do
  let d ← dict value
  let name ← required d "0" (mapping int proceduresEncoded)
  let status ← withDefault d "1" (.str ['0']) text
  let score ← withDefault d "2" (.int 0) int
  pure { name, status := String.ofList status, score }

def loadoutEquipment (d : PyDict) (key : String) : Option Equipment :=
  withDefault d key (.int 0) (mapping int equipmentEncoded)

def loadoutAmmo (d : PyDict) (key : String) : Option Ammo :=
  withDefault d key (.int 0) (mapping int ammoEncoded)

def loadoutSlots : Validator (LoadoutSlots Equipment Ammo) := fun value => do
  let d ← dict value
  let primary ← loadoutEquipment d "0"
  let primaryAmmo ← loadoutAmmo d "1"
  let secondary ← loadoutEquipment d "2"
  let secondaryAmmo ← loadoutAmmo d "3"
  let equipOne ← loadoutEquipment d "4"
  let equipTwo ← loadoutEquipment d "5"
  let equipThree ← loadoutEquipment d "6"
  let equipFour ← loadoutEquipment d "7"
  let equipFive ← loadoutEquipment d "8"
  let breacher ← loadoutEquipment d "9"
  let body ← loadoutEquipment d "10"
  let head ← loadoutEquipment d "11"
  pure { primary, primaryAmmo, secondary, secondaryAmmo, equipOne, equipTwo, equipThree, equipFour,
         equipFive, breacher, body, head }

def weaponItem : Validator WeaponItem := fun value => do
  let d ← dict value
  let code ← required d "0" int
  let time ← withDefault d "1" (.int 0) positiveInt
  let shots ← withDefault d "2" (.int 0) positiveInt
  let hits ← withDefault d "3" (.int 0) positiveInt
  let teamhits ← withDefault d "4" (.int 0) positiveInt
  let kills ← withDefault d "5" (.int 0) positiveInt
  let teamkills ← withDefault d "6" (.int 0) positiveInt
  let distance ← withDefault d "7" (.int 0) positiveInt
  pure { name := weaponEncoded code, time, shots, hits, teamhits, kills, teamkills, distance }

def playerItem (quote : Text → Text) : Validator PlayerItem := fun value => do
  let d ← dict value
  let _id ← required d "0" int
  let ip ← required d "1" (string quote)
  let dropped ← withDefault d "2" (.bool false) boolean
  let admin ← withDefault d "3" (.bool false) boolean
  let vip ← optional d "4" boolean
  let name ← required d "5" (string quote)
  let team ← withDefault d "6" (.int 0) (mapping int teamsEncoded)
  let stats ← each playerFields fun field => optional d (playerKey field) (playerValidator field)
  let _rdCrybaby ← optional d "24" positiveInt
  let _sgCrybaby ← optional d "27" positiveInt
  let coopStatus ← optional d "38" (mapping int coopStatusEncoded)
  let loadout ← optional d "39" loadoutSlots
  let weapons ← optional d "40" (Voluptuous.listOrDict weaponItem)
  pure { ip, name, team, dropped, admin, vip, coopStatus, stats := fun field => (stats field).join,
         loadout, weapons }

/-- The keys of the top level. -/
def gameKeys : List String := (List.range 28).map fun code => toString code

def gamename (quote : Text → Text) : Validator Text := fun value =>
  ((string quote value).map (fallback 0 gamenameNames)).filter fun name =>
    String.ofList name ∈ gamenameNames

def gametype (quote : Text → Text) : Validator GameType := fun value =>
  ((string quote value).map (fallback 0 (gametypeNames.map Prod.fst))).bind fun name =>
    gametypeNames.lookup (String.ofList name)

def mapname (quote : Text → Text) : Validator Text := fun value =>
  (string quote value).map (fallback (-1) mapnameNames)

def gameSchema (quote : Text → Text) : Validator GameData := fun value => do
  let d ← (dict value).filter fun d => noExtra d gameKeys
  let tag ← required d "0" text
  let _version ← required d "1" text
  let _port ← required d "2" (range (some 1) (some 65535) int)
  let _timestamp ← required d "3" positiveInt
  let _hash ← required d "4" text
  let _gamename ← withDefault d "5" (.str "SWAT 4".toList) (gamename quote)
  let _gamever ← required d "6" text
  let _hostname ← required d "7" text
  let gametype ← withDefault d "8" (.str "Barricaded Suspects".toList) (gametype quote)
  let mapname ← withDefault d "9" (.str "A-Bomb Nightclub".toList) (mapname quote)
  let _passworded ← optional d "10" boolean
  let playerNum ← required d "11" positiveInt
  let _playerMax ← required d "12" positiveInt
  let _roundNum ← withDefault d "13" (.int 0) positiveInt
  let _roundMax ← required d "14" positiveInt
  let _timeAbsolute ← required d "15" positiveInt
  let time ← required d "16" positiveInt
  let _timeLimit ← required d "17" positiveInt
  let victSwat ← withDefault d "18" (.int 0) positiveInt
  let victSus ← withDefault d "19" (.int 0) positiveInt
  let scoreSwat ← withDefault d "20" (.int 0) int
  let scoreSus ← withDefault d "21" (.int 0) int
  let outcome ← required d "22" (mapping int outcomeEncoded)
  let bombsDefused ← withDefault d "23" (.int 0) positiveInt
  let bombsTotal ← withDefault d "24" (.int 0) positiveInt
  let coopObjectives ← optional d "25" (Voluptuous.listOrDict objectiveItem)
  let coopProcedures ← optional d "26" (Voluptuous.listOrDict procedureItem)
  let players ← optional d "27" (Voluptuous.listOrDict (playerItem quote))
  pure { tag := String.ofList tag, gametype, mapname := String.ofList mapname, outcome, time,
         playerNum, scoreSwat, scoreSus, victSwat, victSus, bombsDefused, bombsTotal,
         coopProcedures, coopObjectives, players }

structure AcceptedWeapon (item : WeaponItem) : Prop where
  name : item.name ≠ some .none
  time : 0 ≤ item.time
  shots : 0 ≤ item.shots
  hits : 0 ≤ item.hits
  teamhits : 0 ≤ item.teamhits
  kills : 0 ≤ item.kills
  teamkills : 0 ≤ item.teamkills
  distance : 0 ≤ item.distance

structure AcceptedPlayer (item : PlayerItem) : Prop where
  stats : ∀ field ≠ .score, ∀ n ∈ item.stats field, 0 ≤ n
  weapons : ∀ weapons ∈ item.weapons, ∀ weapon ∈ weapons, AcceptedWeapon weapon

/-- The schema bounds most numbers from below, and none from above. -/
structure Accepted (data : GameData) : Prop where
  time : 0 ≤ data.time
  playerNum : 0 ≤ data.playerNum
  victSwat : 0 ≤ data.victSwat
  victSus : 0 ≤ data.victSus
  bombsDefused : 0 ≤ data.bombsDefused
  bombsTotal : 0 ≤ data.bombsTotal
  objectives : ∀ items ∈ data.coopObjectives, ∀ item ∈ items, item.name ∈ objectiveNames
  players : ∀ items ∈ data.players, ∀ item ∈ items, AcceptedPlayer item

section Accepted

variable {quote : Text → Text} {value : PyValue}

theorem nonneg_of_withDefault {d : PyDict} {key : String} {default : PyValue} {n : ℤ}
    (h : withDefault d key default positiveInt = some n) : 0 ≤ n :=
  nonneg_of_positiveInt h

theorem nonneg_of_required {d : PyDict} {key : String} {n : ℤ}
    (h : required d key positiveInt = some n) : 0 ≤ n := by
  obtain ⟨value, hvalue⟩ := exists_of_required h
  exact nonneg_of_positiveInt hvalue

theorem acceptedWeapon_of_weaponItem {item : WeaponItem} (h : weaponItem value = some item) :
    AcceptedWeapon item := by
  obtain ⟨d, _, h⟩ := Option.bind_eq_some_iff.mp h
  obtain ⟨code, _, h⟩ := Option.bind_eq_some_iff.mp h
  obtain ⟨time, htime, h⟩ := Option.bind_eq_some_iff.mp h
  obtain ⟨shots, hshots, h⟩ := Option.bind_eq_some_iff.mp h
  obtain ⟨hits, hhits, h⟩ := Option.bind_eq_some_iff.mp h
  obtain ⟨teamhits, hteamhits, h⟩ := Option.bind_eq_some_iff.mp h
  obtain ⟨kills, hkills, h⟩ := Option.bind_eq_some_iff.mp h
  obtain ⟨teamkills, hteamkills, h⟩ := Option.bind_eq_some_iff.mp h
  obtain ⟨distance, hdistance, h⟩ := Option.bind_eq_some_iff.mp h
  obtain rfl := Option.some.inj h
  refine ⟨fun hname => ?_, nonneg_of_withDefault htime, nonneg_of_withDefault hshots,
    nonneg_of_withDefault hhits, nonneg_of_withDefault hteamhits, nonneg_of_withDefault hkills,
    nonneg_of_withDefault hteamkills, nonneg_of_withDefault hdistance⟩
  simpa using (Option.filter_eq_some_iff.mp hname).2

theorem nonneg_of_playerValidator {field : PlayerField} (hfield : field ≠ .score) {n : ℤ}
    (h : playerValidator field value = some n) : 0 ≤ n := by
  cases field with
  | score => exact absurd rfl hfield
  | _ => exact nonneg_of_positiveInt h

theorem acceptedPlayer_of_playerItem {item : PlayerItem} (h : playerItem quote value = some item) :
    AcceptedPlayer item := by
  obtain ⟨d, _, h⟩ := Option.bind_eq_some_iff.mp h
  obtain ⟨id, _, h⟩ := Option.bind_eq_some_iff.mp h
  obtain ⟨ip, _, h⟩ := Option.bind_eq_some_iff.mp h
  obtain ⟨dropped, _, h⟩ := Option.bind_eq_some_iff.mp h
  obtain ⟨admin, _, h⟩ := Option.bind_eq_some_iff.mp h
  obtain ⟨vip, _, h⟩ := Option.bind_eq_some_iff.mp h
  obtain ⟨name, _, h⟩ := Option.bind_eq_some_iff.mp h
  obtain ⟨team, _, h⟩ := Option.bind_eq_some_iff.mp h
  obtain ⟨stats, hstats, h⟩ := Option.bind_eq_some_iff.mp h
  obtain ⟨rdCrybaby, _, h⟩ := Option.bind_eq_some_iff.mp h
  obtain ⟨sgCrybaby, _, h⟩ := Option.bind_eq_some_iff.mp h
  obtain ⟨coopStatus, _, h⟩ := Option.bind_eq_some_iff.mp h
  obtain ⟨loadout, _, h⟩ := Option.bind_eq_some_iff.mp h
  obtain ⟨weapons, hweapons, h⟩ := Option.bind_eq_some_iff.mp h
  obtain rfl := Option.some.inj h
  constructor
  · intro field hfield n hn
    obtain rfl : (fun field => optional d (playerKey field) (playerValidator field)) = stats := by
      rw [each] at hstats
      split at hstats
      · exact Option.some.inj hstats
      · cases hstats
    obtain ⟨value, hvalue⟩ := exists_of_optional (Option.join_eq_some_iff.mp hn)
    exact nonneg_of_playerValidator hfield hvalue
  · intro items hitems weapon hweapon
    obtain rfl : weapons = some items := hitems
    obtain ⟨value, hvalue⟩ := exists_of_optional hweapons
    obtain ⟨entry, hentry⟩ := mem_of_listOrDict hvalue weapon hweapon
    exact acceptedWeapon_of_weaponItem hentry

theorem name_of_objectiveItem {item : ObjectiveItem} (h : objectiveItem value = some item) :
    item.name ∈ objectiveNames := by
  obtain ⟨d, _, h⟩ := Option.bind_eq_some_iff.mp h
  obtain ⟨name, hname, h⟩ := Option.bind_eq_some_iff.mp h
  obtain ⟨status, _, h⟩ := Option.bind_eq_some_iff.mp h
  obtain rfl := Option.some.inj h
  obtain ⟨value, hvalue⟩ := exists_of_required hname
  obtain ⟨code, _, hcode⟩ := Option.bind_eq_some_iff.mp hvalue
  rw [objectivesEncoded, decode] at hcode
  split at hcode
  · exact List.mem_of_getElem? hcode
  · cases hcode

theorem accepted_of_gameSchema {data : GameData} (h : gameSchema quote value = some data) :
    Accepted data := by
  obtain ⟨d, _, h⟩ := Option.bind_eq_some_iff.mp h
  obtain ⟨tag, _, h⟩ := Option.bind_eq_some_iff.mp h
  obtain ⟨version, _, h⟩ := Option.bind_eq_some_iff.mp h
  obtain ⟨port, _, h⟩ := Option.bind_eq_some_iff.mp h
  obtain ⟨timestamp, _, h⟩ := Option.bind_eq_some_iff.mp h
  obtain ⟨hash, _, h⟩ := Option.bind_eq_some_iff.mp h
  obtain ⟨gamename, _, h⟩ := Option.bind_eq_some_iff.mp h
  obtain ⟨gamever, _, h⟩ := Option.bind_eq_some_iff.mp h
  obtain ⟨hostname, _, h⟩ := Option.bind_eq_some_iff.mp h
  obtain ⟨gametype, _, h⟩ := Option.bind_eq_some_iff.mp h
  obtain ⟨mapname, _, h⟩ := Option.bind_eq_some_iff.mp h
  obtain ⟨passworded, _, h⟩ := Option.bind_eq_some_iff.mp h
  obtain ⟨playerNum, hplayerNum, h⟩ := Option.bind_eq_some_iff.mp h
  obtain ⟨playerMax, _, h⟩ := Option.bind_eq_some_iff.mp h
  obtain ⟨roundNum, _, h⟩ := Option.bind_eq_some_iff.mp h
  obtain ⟨roundMax, _, h⟩ := Option.bind_eq_some_iff.mp h
  obtain ⟨timeAbsolute, _, h⟩ := Option.bind_eq_some_iff.mp h
  obtain ⟨time, htime, h⟩ := Option.bind_eq_some_iff.mp h
  obtain ⟨timeLimit, _, h⟩ := Option.bind_eq_some_iff.mp h
  obtain ⟨victSwat, hvictSwat, h⟩ := Option.bind_eq_some_iff.mp h
  obtain ⟨victSus, hvictSus, h⟩ := Option.bind_eq_some_iff.mp h
  obtain ⟨scoreSwat, _, h⟩ := Option.bind_eq_some_iff.mp h
  obtain ⟨scoreSus, _, h⟩ := Option.bind_eq_some_iff.mp h
  obtain ⟨outcome, _, h⟩ := Option.bind_eq_some_iff.mp h
  obtain ⟨bombsDefused, hbombsDefused, h⟩ := Option.bind_eq_some_iff.mp h
  obtain ⟨bombsTotal, hbombsTotal, h⟩ := Option.bind_eq_some_iff.mp h
  obtain ⟨objectives, hobjectives, h⟩ := Option.bind_eq_some_iff.mp h
  obtain ⟨procedures, _, h⟩ := Option.bind_eq_some_iff.mp h
  obtain ⟨players, hplayers, h⟩ := Option.bind_eq_some_iff.mp h
  obtain rfl := Option.some.inj h
  refine ⟨nonneg_of_required htime, nonneg_of_required hplayerNum,
    nonneg_of_withDefault hvictSwat, nonneg_of_withDefault hvictSus,
    nonneg_of_withDefault hbombsDefused, nonneg_of_withDefault hbombsTotal, ?_, ?_⟩
  · intro items hitems item hitem
    obtain rfl : objectives = some items := hitems
    obtain ⟨value, hvalue⟩ := exists_of_optional hobjectives
    obtain ⟨entry, hentry⟩ := mem_of_listOrDict hvalue item hitem
    exact name_of_objectiveItem hentry
  · intro items hitems item hitem
    obtain rfl : players = some items := hitems
    obtain ⟨value, hvalue⟩ := exists_of_optional hplayers
    obtain ⟨entry, hentry⟩ := mem_of_listOrDict hvalue item hitem
    exact acceptedPlayer_of_playerItem hentry

end Accepted

end Schema

end Swat4Stats
