import Swat4Stats.Encodings
import Swat4Stats.Library.Voluptuous

/-!
# The schema of a status response

`serverquery_schema`: what a server answers to a status query, and what is kept of it. Keys that
the schema does not name are dropped.
-/

namespace Swat4Stats

set_option autoImplicit false

/-- The integers of a status that may be missing. -/
inductive StatusField where
  | round | numrounds | timeleft | timespecial | swatscore | suspectsscore | swatwon
  | suspectswon | bombsdefused | bombstotal
  deriving DecidableEq, Repr

inductive StatusPlayerField where
  | kills | tkills | deaths | arrests | arrested | vescaped | vipescaped | arrestedvip
  | unarrestedvip | validvipkills | invalidvipkills | bombsdiffused | rdcrybaby | sgcrybaby
  | escapedcase | killedcase
  deriving DecidableEq, Repr

structure StatusPlayer where
  id : ℤ
  name : Text
  ping : ℤ
  score : ℤ
  team : Team
  vip : ℤ
  coopstatus : Option CoopStatus
  stats : StatusPlayerField → Option ℤ

structure StatusObjective where
  name : String
  status : CoopObjectiveStatus
  deriving DecidableEq, Repr

structure ServerStatus where
  hostname : Text
  hostport : ℤ
  gamevariant : Text
  gamever : Text
  gametype : Text
  numplayers : ℤ
  maxplayers : ℤ
  mapname : Text
  password : ℤ
  statsenabled : ℤ
  stats : StatusField → Option ℤ
  tocreports : Option Text
  weaponssecured : Option Text
  players : List StatusPlayer
  objectives : List StatusObjective

namespace Schema

open Voluptuous

/-- `PositiveIntOrNone` -/
def positiveIntOrNone : Validator (Option ℤ) := fun value =>
  (int value).map fun n => if n > 0 then some n else none

def statusKey : StatusField → String
  | .round => "round"
  | .numrounds => "numrounds"
  | .timeleft => "timeleft"
  | .timespecial => "timespecial"
  | .swatscore => "swatscore"
  | .suspectsscore => "suspectsscore"
  | .swatwon => "swatwon"
  | .suspectswon => "suspectswon"
  | .bombsdefused => "bombsdefused"
  | .bombstotal => "bombstotal"

def statusValidator : StatusField → Validator (Option ℤ)
  | .timeleft | .timespecial => fun value => (maybe positiveIntOrNone value).map Option.join
  | .swatscore | .suspectsscore => maybe int
  | _ => maybe positiveInt

def statusFields : List StatusField :=
  [.round, .numrounds, .timeleft, .timespecial, .swatscore, .suspectsscore, .swatwon,
    .suspectswon, .bombsdefused, .bombstotal]

def statusPlayerKey : StatusPlayerField → String
  | .kills => "kills"
  | .tkills => "tkills"
  | .deaths => "deaths"
  | .arrests => "arrests"
  | .arrested => "arrested"
  | .vescaped => "vescaped"
  | .vipescaped => "vipescaped"
  | .arrestedvip => "arrestedvip"
  | .unarrestedvip => "unarrestedvip"
  | .validvipkills => "validvipkills"
  | .invalidvipkills => "invalidvipkills"
  | .bombsdiffused => "bombsdiffused"
  | .rdcrybaby => "rdcrybaby"
  | .sgcrybaby => "sgcrybaby"
  | .escapedcase => "escapedcase"
  | .killedcase => "killedcase"

def statusPlayerFields : List StatusPlayerField :=
  [.kills, .tkills, .deaths, .arrests, .arrested, .vescaped, .vipescaped, .arrestedvip,
    .unarrestedvip, .validvipkills, .invalidvipkills, .bombsdiffused, .rdcrybaby, .sgcrybaby,
    .escapedcase, .killedcase]

def statusPlayer : Validator StatusPlayer := fun value => do
  let d ← dict value
  let id ← required d "id" int
  let name ← required d "player" text
  let ping ← required d "ping" int
  let score ← withDefault d "score" (.int 0) int
  let team ← withDefault d "team" (.int 0) (mapping int teamsEncoded)
  let vip ← withDefault d "vip" (.int 0) booleanInt
  let coopstatus ← withDefault d "coopstatus" (.int 0) (mapping int coopStatusEncoded)
  let stats ← each statusPlayerFields fun field =>
    withDefault d (statusPlayerKey field) (.int 0) positiveInt
  pure { id, name, ping, score, team, vip, coopstatus, stats }

def statusObjective : Validator StatusObjective := fun value => do
  let d ← dict value
  let name ← required d "name"
    (mapping text fun name => objectiveMapping.lookup (String.ofList name))
  let status ← required d "status" (mapping int objectiveStatusEncoded)
  pure { name, status }

def serverquerySchema : Validator ServerStatus := fun value => do
  let d ← dict value
  let hostname ← required d "hostname" text
  let hostport ← required d "hostport" positiveInt
  let gamevariant ← required d "gamevariant" text
  let gamever ← required d "gamever" text
  let gametype ← required d "gametype" text
  let numplayers ← required d "numplayers" positiveInt
  let maxplayers ← required d "maxplayers" positiveInt
  let mapname ← required d "mapname" text
  let password ← required d "password" booleanInt
  let statsenabled ← withDefault d "statsenabled" (.int 0) booleanInt
  let stats ← each statusFields fun field =>
    withDefault d (statusKey field) .none (statusValidator field)
  let tocreports ← withDefault d "tocreports" .none (maybe text)
  let weaponssecured ← withDefault d "weaponssecured" .none (maybe text)
  let players ← required d "players" (listOf statusPlayer)
  let objectives ← required d "objectives" (listOf statusObjective)
  pure { hostname, hostport, gamevariant, gamever, gametype, numplayers, maxplayers, mapname,
         password, statsenabled, stats := fun field => (stats field).join, tocreports,
         weaponssecured, players, objectives }

end Schema

end Swat4Stats
