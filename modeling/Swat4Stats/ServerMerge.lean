import Swat4Stats.Database

/-!
# Merging servers

`ServerManager.merge_servers` with `denorm_game_stats`, and the `merge_servers` task around them.
The task is one transaction, and the inner block runs without a savepoint, so the statements of
the manager are simply sequenced here and only the task rolls back.
-/

namespace Swat4Stats

set_option autoImplicit false

open Tx

namespace ServerManager

def createServer (ip : IPv4) (port : ℕ) (enabled : Bool) : DbTx Server := do
  let taken ← read fun db => db.servers.rows.any fun s => s.ip = ip ∧ s.port = port
  if taken then
    raise (.valueError "The server has already been registered.")
  else
    statement fun db => .ok ({ pk := db.servers.nextPk, ip, port, enabled },
      { db with servers := db.servers.create (fun pk => { pk, ip, port, enabled }) fun _ => rfl })

/-- One row of the grouped query: the number of games, the least and the greatest primary key. -/
structure GroupedGames where
  gameCount : ℕ
  firstGameId : GameId
  latestGameId : GameId

def groupGames (games : List Game) (serverId : ServerId) : Option GroupedGames :=
  let pks := (games.filter fun g => g.server = serverId).map Game.pk
  match pks.min?, pks.max? with
  | some first, some latest => some ⟨pks.length, first, latest⟩
  | _, _ => none

def datePlayed (games : List Game) (gameIds : List GameId) (gameId : GameId) : Option Time :=
  ((games.filter fun g => g.pk ∈ gameIds).find? fun g => g.pk = gameId).map Game.dateFinished

def extremeGameIds (grouped : Option GroupedGames) : List GameId :=
  match grouped with
  | some stats => [stats.firstGameId, stats.latestGameId]
  | none => []

def gameStatsOf (grouped : Option GroupedGames) (datePlayed : GameId → Option Time) : GameStats :=
  match grouped with
  | some stats =>
    { gameCount := stats.gameCount
      firstGame := some stats.firstGameId
      firstGamePlayedAt := datePlayed stats.firstGameId
      latestGame := some stats.latestGameId
      latestGamePlayedAt := datePlayed stats.latestGameId }
  | none => {}

def denormGameStats (serverIds : List ServerId) : DbTx Unit := atomic do
  let gameStats ← read fun db => serverIds.map fun id => (id, groupGames db.games.rows id)
  let gameIds := gameStats.flatMap fun item => extremeGameIds item.2
  let datePlayedPerGameId ← read fun db => datePlayed db.games.rows gameIds
  write fun db => { db with
    servers := db.servers.update (fun s => s.pk ∈ serverIds)
      (fun s => { s with
        stats := gameStatsOf (gameStats.lookup s.pk).join datePlayedPerGameId }) fun _ => rfl }

def moveGames (mainId : ServerId) (mergedIds : List ServerId) (db : Database) : Database :=
  { db with
    games := db.games.update (fun g => g.server ≠ mainId ∧ g.server ∈ mergedIds)
      (fun g => { g with server := mainId }) fun _ => rfl }

def isMergeable (mainId : ServerId) (mergedIds : List ServerId) (s : Server) : Bool :=
  s.pk ≠ mainId ∧ s.mergedInto = none ∧ s.pk ∈ mergedIds

def markMerged (now : Time) (mainId : ServerId) (mergedIds : List ServerId) (db : Database) :
    Database :=
  { db with
    servers := db.servers.update (isMergeable mainId mergedIds)
      (fun s => { s with enabled := false, mergedInto := some mainId, mergedIntoAt := some now })
      fun _ => rfl }

def isIndirect (mainId : ServerId) (mergedIds : List ServerId) (s : Server) : Bool :=
  s.pk ≠ mainId ∧ ∃ id ∈ mergedIds, s.mergedInto = some id

def repoint (mainId : ServerId) (indirectIds : List ServerId) (db : Database) : Database :=
  { db with
    servers := db.servers.update (fun s => s.pk ∈ indirectIds)
      (fun s => { s with mergedInto := some mainId }) fun _ => rfl }

def _mergeServers (now : Time) (mainId : ServerId) (mergedIds : List ServerId) : DbTx Unit := do
  write (moveGames mainId mergedIds)
  let affectedServersCnt ← statement fun db =>
    .ok (db.servers.rows.countP (isMergeable mainId mergedIds), markMerged now mainId mergedIds db)
  if affectedServersCnt ≠ mergedIds.length then
    raise (.mergeServersError "failed to merge all servers")
  else do
    let indirectServersIds ← read fun db =>
      (db.servers.rows.filter (isIndirect mainId mergedIds)).map Server.pk
    -- merged_into_at stays as it is: these servers were merged earlier
    if indirectServersIds ≠ [] then
      write (repoint mainId indirectServersIds)
    else
      pure ()

def mergeServers (now : Time) (main : Server) (merged : List Server) : DbTx Unit :=
  let mergedIds := merged.map Server.pk
  if main.mergedInto ≠ none then
    raise (.mergeServersError "cannot merge to a merged server")
  else if mergedIds = [] then
    raise (.mergeServersError "too few servers to merge")
  else if main.pk ∈ mergedIds then
    raise (.mergeServersError "cannot merge a server into itself")
  else do
    _mergeServers now main.pk mergedIds
    denormGameStats (main.pk :: mergedIds)

end ServerManager

namespace Tasks

def mergeServers (now : Time) (mainServerId : ServerId) (mergedServerIds : List ServerId) :
    DbTx Unit := atomic do
  let servers ← read fun db => db.servers
  match servers.find? mainServerId, mergedServerIds.mapM servers.find? with
  | some main, some merged => ServerManager.mergeServers now main merged
  | none, _ => raise (.keyError (toString mainServerId))
  | _, none => raise (.keyError (toString mergedServerIds))

end Tasks

end Swat4Stats
