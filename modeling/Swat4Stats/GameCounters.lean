import Swat4Stats.Library.Tally
import Swat4Stats.MergeGraph

/-!
# Game counters

`update_game_stats_with_game` of servers and of maps, and `denorm_game_stats` of the latter. The
five columns are a tally of the games of their owner by primary key: the incremental update records
one more game, the batch recomputation is the tally of all.
-/

namespace Swat4Stats

set_option autoImplicit false

open Tx

/-- The first statement of an update. -/
def GameStats.startWith (game : Game) (stats : GameStats) : GameStats :=
  { stats with firstGame := some game.pk, firstGamePlayedAt := some game.dateFinished }

/-- The second statement of an update. -/
def GameStats.continueWith (game : Game) (stats : GameStats) : GameStats :=
  { stats with
    gameCount := stats.gameCount + 1
    latestGame := some game.pk
    latestGamePlayedAt := some game.dateFinished }

namespace ServerManager

/-- A null `latest_game` is different from the game as well. -/
def updateGameStatsWithGame (game : Game) : DbTx Unit := atomic do
  write fun db => { db with
    servers := db.servers.update (fun s => s.pk = game.server ∧ s.stats.firstGame = none)
      (fun s => { s with stats := s.stats.startWith game }) fun _ => rfl }
  write fun db => { db with
    servers := db.servers.update (fun s => s.pk = game.server ∧ s.stats.latestGame ≠ some game.pk)
      (fun s => { s with stats := s.stats.continueWith game }) fun _ => rfl }

end ServerManager

namespace MapManager

def updateGameStatsWithGame (game : Game) : DbTx Unit := atomic do
  write fun db => { db with
    maps := db.maps.update (fun m => m.pk = game.map ∧ m.stats.firstGame = none)
      (fun m => { m with stats := m.stats.startWith game }) fun _ => rfl }
  write fun db => { db with
    maps := db.maps.update (fun m => m.pk = game.map ∧ m.stats.latestGame ≠ some game.pk)
      (fun m => { m with stats := m.stats.continueWith game }) fun _ => rfl }

open ServerManager (GroupedGames extremeGameIds datePlayed gameStatsOf)

def groupGames (games : List Game) (mapId : MapId) : Option GroupedGames :=
  let pks := (games.filter fun g => g.map = mapId).map Game.pk
  match pks.min?, pks.max? with
  | some first, some latest => some ⟨pks.length, first, latest⟩
  | _, _ => none

def denormGameStats (mapIds : List MapId) : DbTx Unit := atomic do
  let gameStats ← read fun db => mapIds.map fun id => (id, groupGames db.games.rows id)
  let gameIds := gameStats.flatMap fun item => extremeGameIds item.2
  let datePlayedPerGameId ← read fun db => datePlayed db.games.rows gameIds
  write fun db => { db with
    maps := db.maps.update (fun m => m.pk ∈ mapIds)
      (fun m => { m with
        stats := gameStatsOf (gameStats.lookup m.pk).join datePlayedPerGameId }) fun _ => rfl }

end MapManager

namespace GameStats

/-- The columns that show a tally of games. -/
def ofTally (t : Tally Game) : GameStats where
  gameCount := t.count
  firstGame := t.first.map Game.pk
  firstGamePlayedAt := t.first.map Game.dateFinished
  latestGame := t.last.map Game.pk
  latestGamePlayedAt := t.last.map Game.dateFinished

/-- An update as a whole. -/
def recordGame (game : Game) (stats : GameStats) : GameStats :=
  let started := if stats.firstGame = none then stats.startWith game else stats
  if started.latestGame ≠ some game.pk then started.continueWith game else started

theorem recordGame_ofTally (game : Game) (t : Tally Game) :
    (ofTally t).recordGame game = ofTally (t.record Game.pk game) := by
  obtain ⟨count, first, last⟩ := t
  obtain hlast | hlast := eq_or_ne (last.map Game.pk) (some game.pk)
  · cases first with
    | none => simp [recordGame, startWith, ofTally, Tally.record, hlast]
    | some first => simp [recordGame, ofTally, Tally.record, hlast]
  · cases first with
    | none => simp [recordGame, startWith, continueWith, ofTally, Tally.record, hlast]
    | some first => simp [recordGame, continueWith, ofTally, Tally.record, hlast]

theorem foldl_recordGame (games : List Game) (t : Tally Game) :
    games.foldl (fun stats game => stats.recordGame game) (ofTally t) =
      ofTally (games.foldl (fun t game => t.record Game.pk game) t) := by
  induction games generalizing t with
  | nil => rfl
  | cons game games ih => rw [List.foldl_cons, List.foldl_cons, recordGame_ofTally, ih]

theorem ofTally_map {t : Tally Game} {f : Game → Game} (hpk : ∀ g, (f g).pk = g.pk)
    (hdate : ∀ g, (f g).dateFinished = g.dateFinished) :
    ofTally ⟨t.count, t.first.map f, t.last.map f⟩ = ofTally t := by
  simp only [ofTally, Option.map_map]
  simp only [Function.comp_def, hpk, hdate]

end GameStats

namespace ServerManager

theorem run_updateGameStatsWithGame (game : Game) (db : Database) :
    (updateGameStatsWithGame game).run db = (.ok (), { db with
      servers := db.servers.update (fun s => s.pk = game.server)
        (fun s => { s with stats := s.stats.recordGame game }) fun _ => rfl }) := by
  simp only [updateGameStatsWithGame, run_atomic, run_bind, run_write]
  congr 2
  apply Table.ext
  simp only [Table.rows_update, List.map_map]
  apply List.map_congr_left
  intro s _
  generalize game.server = owner
  obtain rfl | hpk := eq_or_ne owner s.pk
  · obtain hfirst | hfirst := eq_or_ne s.stats.firstGame none
    · by_cases hlatest : s.stats.latestGame = some game.pk <;>
        simp [GameStats.recordGame, GameStats.startWith, hfirst, hlatest]
    · by_cases hlatest : s.stats.latestGame = some game.pk <;>
        simp [GameStats.recordGame, hfirst, hlatest]
  · simp [hpk.symm]

end ServerManager

namespace MapManager

theorem run_updateGameStatsWithGame (game : Game) (db : Database) :
    (updateGameStatsWithGame game).run db = (.ok (), { db with
      maps := db.maps.update (fun m => m.pk = game.map)
        (fun m => { m with stats := m.stats.recordGame game }) fun _ => rfl }) := by
  simp only [updateGameStatsWithGame, run_atomic, run_bind, run_write]
  congr 2
  apply Table.ext
  simp only [Table.rows_update, List.map_map]
  apply List.map_congr_left
  intro m _
  generalize game.map = owner
  obtain rfl | hpk := eq_or_ne owner m.pk
  · obtain hfirst | hfirst := eq_or_ne m.stats.firstGame none
    · by_cases hlatest : m.stats.latestGame = some game.pk <;>
        simp [GameStats.recordGame, GameStats.startWith, hfirst, hlatest]
    · by_cases hlatest : m.stats.latestGame = some game.pk <;>
        simp [GameStats.recordGame, hfirst, hlatest]
  · simp [hpk.symm]

end MapManager

/-- In the order of their primary keys. -/
def InOrder (games : List Game) : Prop := games.Pairwise fun g h => g.pk < h.pk

namespace ServerManager

theorem IsGameStats.eq_ofTally {games counted : List Game} {id : ServerId} {stats : GameStats}
    (h : IsGameStats games id stats) (hnodup : (games.map Game.pk).Nodup)
    (hsorted : InOrder counted) (hcounted : ∀ g, g ∈ counted ↔ g ∈ games ∧ g.server = id) :
    stats = GameStats.ofTally (Tally.of counted) := by
  have hperm : counted.Perm (games.filter fun g => g.server = id) := by
    have hkeys : (counted.map Game.pk).Nodup :=
      List.pairwise_map.mpr (hsorted.imp fun hlt => hlt.ne)
    refine (List.perm_ext_iff_of_nodup hkeys.of_map
      ((hnodup.of_map).filter _)).mpr fun g => ?_
    rw [hcounted, List.mem_filter, decide_eq_true_eq]
  have hcount : stats.gameCount = counted.length := by
    rw [h.count, hperm.length_eq, List.countP_eq_length_filter]
  cases hlast : counted.getLast? with
  | none =>
    obtain rfl := List.getLast?_eq_none_iff.mp hlast
    refine h.noGames fun g hg hid => ?_
    exact List.not_mem_nil ((hcounted g).mpr ⟨hg, hid⟩)
  | some latest =>
    obtain ⟨first, hfirst⟩ : ∃ first, counted.head? = some first := by
      cases counted with
      | nil => cases hlast
      | cons first rest => exact ⟨first, rfl⟩
    obtain ⟨hmem, hid⟩ := (hcounted first).mp (List.mem_of_head? hfirst)
    obtain ⟨hfirstGame, hfirstDate⟩ := h.first first hmem hid fun g hg hgid =>
      Tally.le_of_head? hsorted hfirst ((hcounted g).mpr ⟨hg, hgid⟩)
    obtain ⟨hmem, hid⟩ := (hcounted latest).mp (List.mem_of_getLast? hlast)
    obtain ⟨hlatestGame, hlatestDate⟩ := h.latest latest hmem hid fun g hg hgid =>
      Tally.le_of_getLast? hsorted hlast ((hcounted g).mpr ⟨hg, hgid⟩)
    obtain ⟨gameCount, firstGame, firstGamePlayedAt, latestGame, latestGamePlayedAt⟩ := stats
    simp only [GameStats.ofTally, Tally.of, hfirst, hlast, Option.map_some]
    rw [← hcount, ← hfirstGame, ← hfirstDate, ← hlatestGame, ← hlatestDate]

/-- Where these are the games of the server, `denorm_game_stats` writes these columns. -/
def Denormalises (id : ServerId) (games : List Game) (stats : GameStats) : Prop :=
  ∀ (db : Database) (ids : List ServerId) (server : Server), id ∈ ids →
    (∀ g, g ∈ games ↔ g ∈ db.games.rows ∧ g.server = id) → db.servers.find? id = some server →
      ((denormGameStats ids).run db).2.servers.find? id = some { server with stats }

theorem find?_denormGameStats {db : Database} {ids : List ServerId} {server : Server}
    {games : List Game} (hid : server.pk ∈ ids) (hsorted : InOrder games)
    (hgames : ∀ g, g ∈ games ↔ g ∈ db.games.rows ∧ g.server = server.pk)
    (hserver : db.servers.find? server.pk = some server) :
    ((denormGameStats ids).run db).2.servers.find? server.pk =
      some { server with stats := GameStats.ofTally (Tally.of games) } := by
  rw [run_denormGameStats]
  simp only [withGameStats, Table.find?_update, hserver, Option.map_some, hid, decide_true, if_true]
  rw [(isGameStats_denormalised db.games hid).eq_ofTally db.games.nodup hsorted hgames]

theorem denormalises_iff {id : ServerId} {games : List Game} {stats : GameStats}
    (hsorted : InOrder games) (howner : ∀ g ∈ games, g.server = id) :
    Denormalises id games stats ↔ stats = GameStats.ofTally (Tally.of games) := by
  constructor
  · intro h
    let server : Server := { pk := id, ip := 0, port := 0 }
    let db : Database := { Database.empty with
      servers := ⟨[server], List.nodup_singleton _⟩
      games := ⟨games, List.pairwise_map.mpr (hsorted.imp fun hlt => hlt.ne)⟩ }
    have hgames : ∀ g, g ∈ games ↔ g ∈ db.games.rows ∧ g.server = server.pk := fun g =>
      ⟨fun hg => ⟨hg, howner g hg⟩, And.left⟩
    have hserver : db.servers.find? server.pk = some server := by simp [db, Table.find?]
    have hrun := h db [id] server List.mem_cons_self hgames hserver
    rw [find?_denormGameStats List.mem_cons_self hsorted hgames hserver] at hrun
    exact (Server.mk.inj (Option.some.inj hrun)).2.2.2.2.2.1.symm
  · rintro rfl db ids server hid hgames hserver
    obtain ⟨_, rfl⟩ := Table.find?_eq_some_iff.mp hserver
    exact find?_denormGameStats hid hsorted hgames hserver

end ServerManager

namespace MapManager

open ServerManager (IsGameStats denormalised isGameStats_denormalised lookup_map_self)

/-- Maps count their games the way servers do. -/
def ownedByMap (game : Game) : Game := { game with server := game.map }

theorem groupGames_eq (games : List Game) (id : MapId) :
    groupGames games id = ServerManager.groupGames (games.map ownedByMap) id := by
  simp only [groupGames, ServerManager.groupGames, List.filter_map, List.map_map]
  rfl

theorem datePlayed_eq (games : List Game) (ids : List GameId) :
    ServerManager.datePlayed (games.map ownedByMap) ids = ServerManager.datePlayed games ids := by
  funext id
  simp only [ServerManager.datePlayed, List.filter_map, List.find?_map, Option.map_map]
  rfl

theorem find?_denormGameStats {db : Database} {ids : List MapId} {map : GameMap}
    {games : List Game} (hid : map.pk ∈ ids) (hsorted : InOrder games)
    (hgames : ∀ g, g ∈ games ↔ g ∈ db.games.rows ∧ g.map = map.pk)
    (hmap : db.maps.find? map.pk = some map) :
    ((denormGameStats ids).run db).2.maps.find? map.pk =
      some { map with stats := GameStats.ofTally (Tally.of games) } := by
  let owned : Table Game Game.pk := db.games.update (fun _ => true) ownedByMap fun _ => rfl
  have howned : owned.rows = db.games.rows.map ownedByMap :=
    List.map_congr_left fun g _ => if_pos rfl
  have hstats : denormalised owned.rows ids map.pk =
      GameStats.ofTally (Tally.of (games.map ownedByMap)) := by
    refine (isGameStats_denormalised owned hid).eq_ofTally owned.nodup ?_ ?_
    · exact List.pairwise_map.mpr hsorted
    · intro g
      rw [howned, List.mem_map, List.mem_map]
      constructor
      · rintro ⟨h, hh, rfl⟩
        obtain ⟨hmem, hmap⟩ := (hgames h).mp hh
        exact ⟨⟨h, hmem, rfl⟩, hmap⟩
      · rintro ⟨⟨h, hmem, rfl⟩, hmap⟩
        exact ⟨h, (hgames h).mpr ⟨hmem, hmap⟩, rfl⟩
  have htally : GameStats.ofTally (Tally.of (games.map ownedByMap)) =
      GameStats.ofTally (Tally.of games) := by
    rw [Tally.of, List.length_map, List.head?_map, List.getLast?_map]
    exact @GameStats.ofTally_map (Tally.of games) ownedByMap (fun _ => rfl) fun _ => rfl
  rw [denormalised, howned, datePlayed_eq, htally] at hstats
  simp only [← groupGames_eq] at hstats
  rw [denormGameStats, run_atomic]
  simp only [run_bind, run_read, run_write, Table.find?_update, hmap, Option.map_some, hid,
    decide_true, if_true, lookup_map_self _ hid, Option.join_some, List.flatMap_map]
  rw [hstats]

def Denormalises (id : MapId) (games : List Game) (stats : GameStats) : Prop :=
  ∀ (db : Database) (ids : List MapId) (map : GameMap), id ∈ ids →
    (∀ g, g ∈ games ↔ g ∈ db.games.rows ∧ g.map = id) → db.maps.find? id = some map →
      ((denormGameStats ids).run db).2.maps.find? id = some { map with stats }

theorem denormalises_iff {id : MapId} {games : List Game} {stats : GameStats}
    (hsorted : InOrder games) (howner : ∀ g ∈ games, g.map = id) :
    Denormalises id games stats ↔ stats = GameStats.ofTally (Tally.of games) := by
  constructor
  · intro h
    let map : GameMap := { pk := id, name := "", slug := "" }
    let db : Database := { Database.empty with
      maps := ⟨[map], List.nodup_singleton _⟩
      games := ⟨games, List.pairwise_map.mpr (hsorted.imp fun hlt => hlt.ne)⟩ }
    have hgames : ∀ g, g ∈ games ↔ g ∈ db.games.rows ∧ g.map = map.pk := fun g =>
      ⟨fun hg => ⟨hg, howner g hg⟩, And.left⟩
    have hmap : db.maps.find? map.pk = some map := by simp [db, Table.find?]
    have hrun := h db [id] map List.mem_cons_self hgames hmap
    rw [find?_denormGameStats List.mem_cons_self hsorted hgames hmap] at hrun
    exact (GameMap.mk.inj (Option.some.inj hrun)).2.2.2.symm
  · rintro rfl db ids map hid hgames hmap
    obtain ⟨_, rfl⟩ := Table.find?_eq_some_iff.mp hmap
    exact find?_denormGameStats hid hsorted hgames hmap

end MapManager

namespace GameCounters

section Runs

variable {played remaining calls : List Game}

/-- The calls for the remaining games bring the columns from those of the games played before to
those of all. -/
theorem foldl_recordGame_of_redelivers (hsorted : InOrder (played ++ remaining))
    (hcalls : Tally.Redelivers remaining calls) :
    calls.foldl (fun stats game => stats.recordGame game) (GameStats.ofTally (Tally.of played)) =
      GameStats.ofTally (Tally.of (played ++ remaining)) := by
  rw [GameStats.foldl_recordGame, Tally.foldl_record_of_redelivers hsorted hcalls]

theorem mem_of_redelivers (hcalls : Tally.Redelivers remaining calls) :
    ∀ g ∈ calls, g ∈ remaining := by
  induction hcalls with
  | nil => simp
  | cons a again _ ih =>
    intro g hg
    obtain hg | hg := List.mem_append.mp hg
    · rw [List.eq_of_mem_replicate hg]
      exact List.mem_cons_self
    · exact List.mem_cons_of_mem _ (ih g hg)

theorem run_serverUpdates {server : Server} (db : Database)
    (howner : ∀ g ∈ calls, g.server = server.pk)
    (hserver : db.servers.find? server.pk = some server) :
    ∃ db', (forEach calls ServerManager.updateGameStatsWithGame).run db = (.ok (), db') ∧
      db'.servers.find? server.pk = some { server with
        stats := calls.foldl (fun stats game => stats.recordGame game) server.stats } := by
  induction calls generalizing db server with
  | nil => exact ⟨db, rfl, hserver⟩
  | cons game calls ih =>
    rw [run_forEach_cons, ServerManager.run_updateGameStatsWithGame]
    have hgame := howner game List.mem_cons_self
    refine @ih { server with stats := server.stats.recordGame game } _
      (fun g hg => howner g (List.mem_cons_of_mem _ hg)) ?_
    rw [Table.find?_update, hserver, Option.map_some, if_pos (by simpa using hgame.symm)]

theorem run_mapUpdates {map : GameMap} (db : Database) (howner : ∀ g ∈ calls, g.map = map.pk)
    (hmap : db.maps.find? map.pk = some map) :
    ∃ db', (forEach calls MapManager.updateGameStatsWithGame).run db = (.ok (), db') ∧
      db'.maps.find? map.pk = some { map with
        stats := calls.foldl (fun stats game => stats.recordGame game) map.stats } := by
  induction calls generalizing db map with
  | nil => exact ⟨db, rfl, hmap⟩
  | cons game calls ih =>
    rw [run_forEach_cons, MapManager.run_updateGameStatsWithGame]
    have hgame := howner game List.mem_cons_self
    refine @ih { map with stats := map.stats.recordGame game } _
      (fun g hg => howner g (List.mem_cons_of_mem _ hg)) ?_
    rw [Table.find?_update, hmap, Option.map_some, if_pos (by simpa using hgame.symm)]

/-- Games that are delivered in the order of their primary keys, once or more often each, bring
the columns of a server or a map from those of any of the first games to those that the batch
recomputation writes for all of them. -/
theorem denormalises_of_redelivers :
    (∀ (db : Database) (server : Server) (played remaining calls : List Game),
      InOrder (played ++ remaining) → (∀ g ∈ played ++ remaining, g.server = server.pk) →
      db.servers.find? server.pk = some server →
      ServerManager.Denormalises server.pk played server.stats →
      Tally.Redelivers remaining calls →
        ∃ db' stats, (forEach calls ServerManager.updateGameStatsWithGame).run db = (.ok (), db') ∧
          db'.servers.find? server.pk = some { server with stats } ∧
          ServerManager.Denormalises server.pk (played ++ remaining) stats) ∧
    ∀ (db : Database) (map : GameMap) (played remaining calls : List Game),
      InOrder (played ++ remaining) → (∀ g ∈ played ++ remaining, g.map = map.pk) →
      db.maps.find? map.pk = some map → MapManager.Denormalises map.pk played map.stats →
      Tally.Redelivers remaining calls →
        ∃ db' stats, (forEach calls MapManager.updateGameStatsWithGame).run db = (.ok (), db') ∧
          db'.maps.find? map.pk = some { map with stats } ∧
          MapManager.Denormalises map.pk (played ++ remaining) stats := by
  constructor
  · intro db server played remaining calls hsorted howner hserver hstart hcalls
    have hplayed : InOrder played := (List.pairwise_append.mp hsorted).1
    rw [ServerManager.denormalises_iff hplayed fun g hg =>
      howner g (List.mem_append_left _ hg)] at hstart
    obtain ⟨db', hrun, hfind⟩ := @run_serverUpdates calls server db
      (fun g hg => howner g (List.mem_append_right _ (mem_of_redelivers hcalls g hg))) hserver
    refine ⟨db', _, hrun, hfind, (ServerManager.denormalises_iff hsorted howner).mpr ?_⟩
    rw [hstart, foldl_recordGame_of_redelivers hsorted hcalls]
  · intro db map played remaining calls hsorted howner hmap hstart hcalls
    have hplayed : InOrder played := (List.pairwise_append.mp hsorted).1
    rw [MapManager.denormalises_iff hplayed fun g hg =>
      howner g (List.mem_append_left _ hg)] at hstart
    obtain ⟨db', hrun, hfind⟩ := @run_mapUpdates calls map db
      (fun g hg => howner g (List.mem_append_right _ (mem_of_redelivers hcalls g hg))) hmap
    refine ⟨db', _, hrun, hfind, (MapManager.denormalises_iff hsorted howner).mpr ?_⟩
    rw [hstart, foldl_recordGame_of_redelivers hsorted hcalls]

end Runs

section Example

def numberedGame (pk : GameId) : Game :=
  { sampleGame with pk, dateFinished := 100 * pk }

def oneCounted : GameStats := ⟨1, some 1, some 100, some 1, some 100⟩

def countedServer : Server := { pk := 1, ip := 1, port := 10480, stats := oneCounted }

def countedMap : GameMap :=
  { pk := 1, name := "A-Bomb Nightclub", slug := "a-bomb-nightclub", stats := oneCounted }

theorem denormalises_of_threeGames :
    (∃ db' stats, (forEach [numberedGame 2, numberedGame 2, numberedGame 3]
        ServerManager.updateGameStatsWithGame).run
          { Database.empty with servers := ⟨[countedServer], List.nodup_singleton _⟩ } =
            (.ok (), db') ∧
      db'.servers.find? 1 = some { countedServer with stats } ∧
      ServerManager.Denormalises 1 [numberedGame 1, numberedGame 2, numberedGame 3] stats) ∧
    ∃ db' stats, (forEach [numberedGame 2, numberedGame 3, numberedGame 3]
        MapManager.updateGameStatsWithGame).run
          { Database.empty with maps := ⟨[countedMap], List.nodup_singleton _⟩ } = (.ok (), db') ∧
      db'.maps.find? 1 = some { countedMap with stats } ∧
      MapManager.Denormalises 1 [numberedGame 1, numberedGame 2, numberedGame 3] stats := by
  have hsorted : InOrder [numberedGame 1, numberedGame 2, numberedGame 3] := by
    unfold InOrder
    decide
  have hone : InOrder [numberedGame 1] := List.pairwise_singleton _ _
  constructor
  · refine denormalises_of_redelivers.1 _ countedServer [numberedGame 1]
      [numberedGame 2, numberedGame 3] [numberedGame 2, numberedGame 2, numberedGame 3] hsorted
      (by decide) (by decide) ?_ (.cons _ 1 (.cons _ 0 .nil))
    exact (ServerManager.denormalises_iff hone (by decide)).mpr rfl
  · refine denormalises_of_redelivers.2 _ countedMap [numberedGame 1]
      [numberedGame 2, numberedGame 3] [numberedGame 2, numberedGame 3, numberedGame 3] hsorted
      (by decide) (by decide) ?_ (.cons _ 0 (.cons _ 1 .nil))
    exact (MapManager.denormalises_iff hone (by decide)).mpr rfl

end Example

end GameCounters

end Swat4Stats
