import Swat4Stats.Aliases
import Swat4Stats.GameCounters
import Swat4Stats.Library.Keyset
import Swat4Stats.StatsWatermark

/-!
# Game counters under any order of tasks

Games are committed, and each leaves three tasks behind that run later in any order, with merges in
between. A counter is a tally of the games whose tasks have run, and possibly of some whose tasks
have not, as long as no task runs for a game behind the last one counted.
-/

namespace Swat4Stats

set_option autoImplicit false

open Tx Transition

namespace Tasks

def getGame (gameId : GameId) (update : Game → DbTx Unit) : DbTx Unit := do
  let game ← read fun db => db.games.find? gameId
  match game with
  | some game => update game
  | none => raise .objectDoesNotExist

def updateProfileGames (gameId : GameId) : DbTx Unit :=
  getGame gameId ProfileManager.updateWithGame

def updateServerGames (gameId : GameId) : DbTx Unit :=
  getGame gameId ServerManager.updateGameStatsWithGame

def updateMapGames (gameId : GameId) : DbTx Unit :=
  getGame gameId MapManager.updateGameStatsWithGame

theorem run_getGame {gameId : GameId} {update : Game → DbTx Unit} {db : Database} {game : Game}
    (h : db.games.find? gameId = some game) :
    (getGame gameId update).run db = (update game).run db := by
  simp only [getGame, run_bind, run_read, h]

theorem run_getGame_of_none {gameId : GameId} {update : Game → DbTx Unit} {db : Database}
    (h : db.games.find? gameId = none) : ((getGame gameId update).run db).2 = db := by
  simp only [getGame, run_bind, run_read, h, run_raise]

end Tasks

namespace CounterRace

open ProfileManager (playedIn)

structure State where
  db : Database
  /-- The games whose `update_server_games` is queued. -/
  serverTasks : List GameId
  mapTasks : List GameId
  profileTasks : List GameId

inductive Event where
  | createServer (ip : IPv4) (port : ℕ) (enabled : Bool)
  | createMap (name slug : String)
  | createProfile (name : Text)
  | createAlias (name : Text) (profile : ProfileId) (isp : Option IspId) (now : Time)
  | commitGame (game : Game) (players : List (Player × List Weapon))
  | updateServerGames (gameId : GameId)
  | updateMapGames (gameId : GameId)
  | updateProfileGames (gameId : GameId)
  | mergeServers (now : Time) (mainId : ServerId) (mergedIds : List ServerId)

/-- Primary keys are given out by a sequence, so a game may be committed after one with a greater
key. -/
def addGame (game : Game) (players : List (Player × List Weapon)) (db : Database) : Database :=
  players.foldl (AnnualStats.addPlayer game.pk) { db with games := db.games.insert game }

/-- The references of a new game and of its players. -/
structure Committable (db : Database) (game : Game) (players : List (Player × List Weapon)) :
    Prop where
  fresh : ∀ g ∈ db.games.rows, g.pk ≠ game.pk
  server : ∃ s ∈ db.servers.rows, s.pk = game.server
  map : ∃ m ∈ db.maps.rows, m.pk = game.map
  aliases : ∀ entry ∈ players, ∃ a ∈ db.aliases.rows, a.pk = entry.1.aliasId

def system : System State Event where
  enabled s
    | .createAlias _ profile _ _ => ∃ p ∈ s.db.profiles.rows, p.pk = profile
    | .commitGame game players => Committable s.db game players
    | .updateServerGames gameId => gameId ∈ s.serverTasks
    | .updateMapGames gameId => gameId ∈ s.mapTasks
    | .updateProfileGames gameId => gameId ∈ s.profileTasks
    | _ => True
  next s
    | .createServer ip port enabled =>
      { s with db := ((ServerManager.createServer ip port enabled).run s.db).2 }
    | .createMap name slug =>
      { s with
        db := { s.db with maps := s.db.maps.create (fun pk => { pk, name, slug }) fun _ => rfl } }
    | .createProfile name => { s with db := ((ProfileManager.create name).run s.db).2 }
    | .createAlias name profile isp now =>
      { s with db := ((AliasManager.create name profile isp now).run s.db).2 }
    | .commitGame game players =>
      { db := addGame game players s.db
        serverTasks := s.serverTasks ++ [game.pk]
        mapTasks := s.mapTasks ++ [game.pk]
        profileTasks := s.profileTasks ++ [game.pk] }
    | .updateServerGames gameId =>
      { s with
        db := ((Tasks.updateServerGames gameId).run s.db).2
        serverTasks := s.serverTasks.erase gameId }
    | .updateMapGames gameId =>
      { s with
        db := ((Tasks.updateMapGames gameId).run s.db).2
        mapTasks := s.mapTasks.erase gameId }
    | .updateProfileGames gameId =>
      { s with
        db := ((Tasks.updateProfileGames gameId).run s.db).2
        profileTasks := s.profileTasks.erase gameId }
    | .mergeServers now mainId mergedIds =>
      { s with db := ((Tasks.mergeServers now mainId mergedIds).run s.db).2 }

/-- The columns of the profile are those of its first and its last game. -/
structure ProfileAgrees (db : Database) (profile : Profile) : Prop where
  noGames : (∀ g ∈ db.games.rows, ¬ playedIn db g.pk profile.pk) →
    profile.gameFirst = none ∧ profile.firstSeenAt = none ∧ profile.gameLast = none ∧
      profile.lastSeenAt = none
  first : ∀ g ∈ db.games.rows, playedIn db g.pk profile.pk →
    (∀ h ∈ db.games.rows, playedIn db h.pk profile.pk → g.pk ≤ h.pk) →
      profile.gameFirst = some g.pk ∧ profile.firstSeenAt = some g.dateFinished
  last : ∀ g ∈ db.games.rows, playedIn db g.pk profile.pk →
    (∀ h ∈ db.games.rows, playedIn db h.pk profile.pk → h.pk ≤ g.pk) →
      profile.gameLast = some g.pk ∧ profile.lastSeenAt = some g.dateFinished

/-- A batch recomputation would change no server and no map. -/
structure Agrees (db : Database) : Prop where
  servers : ∀ server ∈ db.servers.rows, ∀ ids, server.pk ∈ ids →
    ((ServerManager.denormGameStats ids).run db).2.servers.find? server.pk = some server
  maps : ∀ map ∈ db.maps.rows, ∀ ids, map.pk ∈ ids →
    ((MapManager.denormGameStats ids).run db).2.maps.find? map.pk = some map
  profiles : ∀ profile ∈ db.profiles.rows, ProfileAgrees db profile

def Drained (s : State) : Prop := s.serverTasks = [] ∧ s.mapTasks = [] ∧ s.profileTasks = []

/-- No task runs for a game behind the last one counted of its owner. -/
def InTurn (s : State) : Event → Prop
  | .updateServerGames gameId => ∀ g ∈ s.db.games.rows, g.pk = gameId →
      ∀ server ∈ s.db.servers.rows, server.pk = g.server →
        ∀ latest ∈ server.stats.latestGame, latest ≤ gameId
  | .updateMapGames gameId => ∀ g ∈ s.db.games.rows, g.pk = gameId →
      ∀ map ∈ s.db.maps.rows, map.pk = g.map → ∀ latest ∈ map.stats.latestGame, latest ≤ gameId
  | .updateProfileGames gameId => ∀ profile ∈ s.db.profiles.rows,
      playedIn s.db gameId profile.pk → ∀ last ∈ profile.gameLast, last ≤ gameId
  | _ => True

/-- No reference is broken. -/
structure Consistent (db : Database) : Prop where
  gameServers : ∀ g ∈ db.games.rows, ∃ s ∈ db.servers.rows, s.pk = g.server
  gameMaps : ∀ g ∈ db.games.rows, ∃ m ∈ db.maps.rows, m.pk = g.map
  playerAliases : ∀ p ∈ db.players.rows, ∃ a ∈ db.aliases.rows, a.pk = p.aliasId
  aliasProfiles : ∀ a ∈ db.aliases.rows, ∃ p ∈ db.profiles.rows, p.pk = a.profile

/-- The tally that a row shows accounts for the games it owns. -/
def Counts (games : List Game) (owned : Game → Prop) (tasks : List GameId)
    (shows : Tally Game → Prop) : Prop :=
  ∃ t, Tally.Accounts Game.pk (fun g => g ∈ games ∧ owned g) (· ∈ tasks) t ∧ shows t

def Shows (profile : Profile) (t : Tally Game) : Prop :=
  profile.gameFirst = t.first.map Game.pk ∧ profile.firstSeenAt = t.first.map Game.dateFinished ∧
    profile.gameLast = t.last.map Game.pk ∧ profile.lastSeenAt = t.last.map Game.dateFinished

structure Invariant (s : State) : Prop where
  consistent : Consistent s.db
  servers : ∀ server ∈ s.db.servers.rows, Counts s.db.games.rows (fun g => g.server = server.pk)
    s.serverTasks fun t => server.stats = GameStats.ofTally t
  maps : ∀ map ∈ s.db.maps.rows, Counts s.db.games.rows (fun g => g.map = map.pk)
    s.mapTasks fun t => map.stats = GameStats.ofTally t
  profiles : ∀ profile ∈ s.db.profiles.rows,
    Counts s.db.games.rows (fun g => playedIn s.db g.pk profile.pk) s.profileTasks (Shows profile)

section Counts

variable {games games' : List Game} {owned owned' : Game → Prop} {tasks tasks' : List GameId}
  {shows shows' : Tally Game → Prop}

theorem Counts.nothing (h : ∀ g ∈ games, ¬ owned g) (hshows : shows ⟨0, none, none⟩) :
    Counts games owned tasks shows :=
  ⟨_, Tally.Accounts.nothing fun g hg => h g hg.1 hg.2, hshows⟩

theorem Counts.congr (h : Counts games owned tasks shows)
    (howned : ∀ g ∈ games, (owned' g ↔ owned g)) : Counts games owned' tasks shows := by
  obtain ⟨t, ht, hshows⟩ := h
  refine ⟨t, ht.mono (fun g hg => ⟨hg.1, (howned g hg.1).mpr hg.2⟩) fun g hg hnot => ?_, hshows⟩
  exact ⟨⟨hg.1, (howned g hg.1).mp hg.2⟩, hnot⟩

theorem Counts.commit (h : Counts games owned tasks shows) {game : Game}
    (howned : ∀ g ∈ games, (owned' g ↔ owned g)) :
    Counts (games ++ [game]) owned' (tasks ++ [game.pk]) shows := by
  obtain ⟨t, ht, hshows⟩ := h
  refine ⟨t, ht.mono ?_ ?_, hshows⟩
  · rintro g ⟨hg, hgowned⟩
    exact ⟨List.mem_append_left _ hg, (howned g hg).mpr hgowned⟩
  · rintro g ⟨hg, hgowned⟩ hnot
    rw [List.mem_append, List.mem_singleton, not_or] at hnot
    obtain hg | hg := List.mem_append.mp hg
    · exact ⟨⟨hg, (howned g hg).mp hgowned⟩, hnot.1⟩
    · exact absurd (congrArg Game.pk (List.mem_singleton.mp hg)) hnot.2

theorem Counts.skip (h : Counts games owned tasks shows) {gameId : GameId}
    (hother : ∀ g ∈ games, g.pk = gameId → ¬ owned g) :
    Counts games owned (tasks.erase gameId) shows := by
  obtain ⟨t, ht, hshows⟩ := h
  refine ⟨t, ht.mono (fun g hg => hg) fun g hg hnot => ⟨hg, fun htask => hnot ?_⟩, hshows⟩
  exact (List.mem_erase_of_ne fun hpk => hother g hg.1 hpk hg.2).mpr htask

theorem Counts.record (h : Counts games owned tasks shows) {game : Game} (hgame : game ∈ games)
    (hnodup : (games.map Game.pk).Nodup) (howned : owned game)
    (horder : ∀ t, shows t → ∀ latest ∈ t.last, latest.pk ≤ game.pk)
    (hshows : ∀ t, shows t → shows' (t.record Game.pk game)) :
    Counts games owned (tasks.erase game.pk) shows' := by
  obtain ⟨t, ht, hshow⟩ := h
  refine ⟨_, ht.record ⟨hgame, howned⟩ ?_ (horder t hshow) ?_, hshows t hshow⟩
  · rintro g ⟨hg, _⟩ hpk
    exact List.inj_on_of_nodup_map hnodup hg hgame hpk
  · intro pk hpk
    obtain rfl | hne := eq_or_ne pk game.pk
    · exact .inl rfl
    · exact .inr ((List.mem_erase_of_ne hne).mpr hpk)

theorem Counts.map (h : Counts games owned tasks shows) {f : Game → Game}
    (hpk : ∀ g, (f g).pk = g.pk) (howned : ∀ g ∈ games, (owned' (f g) ↔ owned g))
    (hshows : ∀ t, shows t → shows' ⟨t.count, t.first.map f, t.last.map f⟩) :
    Counts (games.map f) owned' tasks shows' := by
  obtain ⟨t, ht, hshow⟩ := h
  refine ⟨_, ht.map hpk ?_ ?_, hshows t hshow⟩
  · rintro g ⟨hg, hgowned⟩
    exact ⟨List.mem_map_of_mem hg, (howned g hg).mpr hgowned⟩
  · rintro g ⟨hg, hgowned⟩
    obtain ⟨old, hold, rfl⟩ := List.mem_map.mp hg
    exact ⟨old, ⟨hold, (howned old hold).mp hgowned⟩, rfl⟩

end Counts

section Steps

variable {s : State}

theorem invariant_createServer (hinv : Invariant s) (ip : IPv4) (port : ℕ) (enabled : Bool) :
    Invariant { s with db := ((ServerManager.createServer ip port enabled).run s.db).2 } := by
  simp only [ServerManager.createServer, run_bind, run_read]
  split
  · exact hinv
  · simp only [run_statement]
    obtain ⟨⟨hservers, hmaps, hplayers, haliases⟩, hcounted, hmapCounts, hprofiles⟩ := hinv
    refine ⟨⟨fun g hg => ?_, hmaps, hplayers, haliases⟩, fun server hserver => ?_, hmapCounts,
      hprofiles⟩
    · obtain ⟨owner, howner, hpk⟩ := hservers g hg
      exact ⟨owner, Table.mem_create.mpr (.inl howner), hpk⟩
    · obtain hserver | rfl := Table.mem_create.mp hserver
      · exact hcounted server hserver
      · refine Counts.nothing (fun g hg hnew => ?_) rfl
        obtain ⟨owner, howner, hpk⟩ := hservers g hg
        exact (s.db.servers.lt_nextPk howner).ne (hpk.trans hnew)

theorem invariant_createMap (hinv : Invariant s) (name slug : String) :
    Invariant { s with
      db := { s.db with
        maps := s.db.maps.create (fun pk => { pk, name, slug }) fun _ => rfl } } := by
  obtain ⟨⟨hservers, hmaps, hplayers, haliases⟩, hcounted, hmapCounts, hprofiles⟩ := hinv
  refine ⟨⟨hservers, fun g hg => ?_, hplayers, haliases⟩, hcounted, fun map hmap => ?_, hprofiles⟩
  · obtain ⟨owner, howner, hpk⟩ := hmaps g hg
    exact ⟨owner, Table.mem_create.mpr (.inl howner), hpk⟩
  · obtain hmap | rfl := Table.mem_create.mp hmap
    · exact hmapCounts map hmap
    · refine Counts.nothing (fun g hg hnew => ?_) rfl
      obtain ⟨owner, howner, hpk⟩ := hmaps g hg
      exact (s.db.maps.lt_nextPk howner).ne (hpk.trans hnew)

theorem invariant_createProfile (hinv : Invariant s) (name : Text) :
    Invariant { s with db := ((ProfileManager.create name).run s.db).2 } := by
  simp only [ProfileManager.create, run_statement]
  obtain ⟨⟨hservers, hmaps, hplayers, haliases⟩, hcounted, hmapCounts, hprofiles⟩ := hinv
  refine ⟨⟨hservers, hmaps, hplayers, fun a ha => ?_⟩, hcounted, hmapCounts,
    fun profile hprofile => ?_⟩
  · obtain ⟨owner, howner, hpk⟩ := haliases a ha
    exact ⟨owner, Table.mem_create.mpr (.inl howner), hpk⟩
  · obtain hprofile | rfl := Table.mem_create.mp hprofile
    · exact hprofiles profile hprofile
    · refine Counts.nothing (fun g _ hplayed => ?_) ⟨rfl, rfl, rfl, rfl⟩
      obtain ⟨a, ha, hnew, _⟩ := StatsWatermark.playedIn_iff.mp hplayed
      obtain ⟨owner, howner, hpk⟩ := haliases a ha
      exact (s.db.profiles.lt_nextPk howner).ne (hpk.trans hnew)

theorem invariant_createAlias (hinv : Invariant s) {profile : ProfileId} (name : Text)
    (isp : Option IspId) (now : Time) (hprofile : ∃ p ∈ s.db.profiles.rows, p.pk = profile) :
    Invariant { s with db := ((AliasManager.create name profile isp now).run s.db).2 } := by
  simp only [AliasManager.create, run_statement]
  obtain ⟨⟨hservers, hmaps, hplayers, haliases⟩, hcounted, hmapCounts, hprofiles⟩ := hinv
  refine ⟨⟨hservers, hmaps, fun p hp => ?_, fun a ha => ?_⟩, hcounted, hmapCounts, fun p hp => ?_⟩
  · obtain ⟨a, ha, hpk⟩ := hplayers p hp
    exact ⟨a, Table.mem_create.mpr (.inl ha), hpk⟩
  · obtain ha | rfl := Table.mem_create.mp ha
    · exact haliases a ha
    · exact hprofile
  · -- no player has the new alias
    refine (hprofiles p hp).congr fun g _ => ?_
    rw [StatsWatermark.playedIn_iff, StatsWatermark.playedIn_iff]
    constructor
    · rintro ⟨a, ha, hprofile, player, hplayer, haliasId, hgame⟩
      obtain ha | rfl := Table.mem_create.mp ha
      · exact ⟨a, ha, hprofile, player, hplayer, haliasId, hgame⟩
      · obtain ⟨a, ha, hpk⟩ := hplayers player hplayer
        exact absurd (hpk.trans haliasId) (s.db.aliases.lt_nextPk ha).ne
    · rintro ⟨a, ha, hprofile, hplayed⟩
      exact ⟨a, Table.mem_create.mpr (.inl ha), hprofile, hplayed⟩

theorem invariant_commitGame (hinv : Invariant s) {game : Game}
    {players : List (Player × List Weapon)} (hnew : Committable s.db game players) :
    Invariant { s with
      db := addGame game players s.db
      serverTasks := s.serverTasks ++ [game.pk]
      mapTasks := s.mapTasks ++ [game.pk]
      profileTasks := s.profileTasks ++ [game.pk] } := by
  obtain ⟨hgames, hservers, hmaps, haliases, hprofiles, hplayers⟩ :=
    StatsWatermark.addPlayers_tables game.pk players
      { s.db with games := s.db.games.insert game }
  have hrows : (addGame game players s.db).games.rows = s.db.games.rows ++ [game] :=
    (congrArg Table.rows hgames).trans (Table.rows_insert hnew.fresh)
  have hservers : (addGame game players s.db).servers = s.db.servers := hservers
  have hmaps : (addGame game players s.db).maps = s.db.maps := hmaps
  have haliases : (addGame game players s.db).aliases = s.db.aliases := haliases
  have hprofiles : (addGame game players s.db).profiles = s.db.profiles := hprofiles
  have hplayed : ∀ g ∈ s.db.games.rows, ∀ profile,
      (playedIn (addGame game players s.db) g.pk profile ↔ playedIn s.db g.pk profile) := by
    intro g hg profile
    simp only [StatsWatermark.playedIn_iff, haliases]
    refine exists_congr fun a => and_congr_right fun _ => and_congr_right fun _ => ?_
    refine (hplayers a.pk g.pk).trans (or_iff_left ?_)
    rintro ⟨hpk, _⟩
    exact hnew.fresh g hg hpk
  refine ⟨⟨?_, ?_, ?_, ?_⟩, ?_, ?_, ?_⟩
  · intro g hg
    rw [hservers]
    rw [hrows] at hg
    obtain hg | hg := List.mem_append.mp hg
    · exact hinv.consistent.gameServers g hg
    · rw [List.mem_singleton.mp hg]
      exact hnew.server
  · intro g hg
    rw [hmaps]
    rw [hrows] at hg
    obtain hg | hg := List.mem_append.mp hg
    · exact hinv.consistent.gameMaps g hg
    · rw [List.mem_singleton.mp hg]
      exact hnew.map
  · intro p hp
    rw [haliases]
    obtain ⟨player, hplayer, haliasId, _⟩ | ⟨_, entry, hentry, haliasId⟩ :=
      (hplayers p.aliasId p.game).mp ⟨p, hp, rfl, rfl⟩
    · rw [← haliasId]
      exact hinv.consistent.playerAliases player hplayer
    · rw [← haliasId]
      exact hnew.aliases entry hentry
  · rw [haliases, hprofiles]
    exact hinv.consistent.aliasProfiles
  · rw [hservers, hrows]
    exact fun server hserver => (hinv.servers server hserver).commit fun _ _ => Iff.rfl
  · rw [hmaps, hrows]
    exact fun map hmap => (hinv.maps map hmap).commit fun _ _ => Iff.rfl
  · rw [hprofiles, hrows]
    exact fun profile hprofile => (hinv.profiles profile hprofile).commit fun g hg =>
      hplayed g hg profile.pk

theorem not_owned_of_none {db : Database} {gameId : GameId} {owned : Game → Prop}
    (h : db.games.find? gameId = none) : ∀ g ∈ db.games.rows, g.pk = gameId → ¬ owned g :=
  fun g hg hpk => absurd hpk (Table.find?_eq_none_iff.mp h g hg)

theorem stats_record {game : Game} {stats : GameStats} {t : Tally Game}
    (h : stats = GameStats.ofTally t) :
    stats.recordGame game = GameStats.ofTally (t.record Game.pk game) := by
  rw [h, GameStats.recordGame_ofTally]

theorem latest_le {game : Game} {stats : GameStats} {t : Tally Game}
    (horder : ∀ latest ∈ stats.latestGame, latest ≤ game.pk) (h : stats = GameStats.ofTally t) :
    ∀ latest ∈ t.last, latest.pk ≤ game.pk := by
  intro latest hlatest
  apply horder latest.pk
  rw [h]
  exact Option.mem_map_of_mem Game.pk hlatest

theorem invariant_updateServerGames (hinv : Invariant s) {gameId : GameId}
    (horder : InTurn s (.updateServerGames gameId)) :
    Invariant { s with
      db := ((Tasks.updateServerGames gameId).run s.db).2
      serverTasks := s.serverTasks.erase gameId } := by
  rw [Tasks.updateServerGames]
  cases hfind : s.db.games.find? gameId with
  | none =>
    rw [Tasks.run_getGame_of_none hfind]
    exact ⟨hinv.consistent, fun server hserver => (hinv.servers server hserver).skip
      (not_owned_of_none hfind), hinv.maps, hinv.profiles⟩
  | some game =>
    obtain ⟨hgame, rfl⟩ := Table.find?_eq_some_iff.mp hfind
    rw [Tasks.run_getGame hfind, ServerManager.run_updateGameStatsWithGame]
    obtain ⟨⟨hservers, hmaps, hplayers, haliases⟩, hcounted, hmapCounts, hprofiles⟩ := hinv
    refine ⟨⟨fun g hg => ?_, hmaps, hplayers, haliases⟩, fun server' hserver' => ?_, hmapCounts,
      hprofiles⟩
    · refine Table.exists_mem_update (fun _ => ?_) (hservers g hg)
      rfl
    · obtain ⟨server, hserver, rfl⟩ := List.mem_map.mp hserver'
      obtain howner | hother := eq_or_ne server.pk game.server
      · rw [if_pos (decide_eq_true howner)]
        exact (hcounted server hserver).record hgame s.db.games.nodup howner.symm
          (fun t => latest_le (horder game hgame rfl server hserver howner))
          fun t => stats_record
      · rw [if_neg (by simpa using hother)]
        refine (hcounted server hserver).skip fun g hg hpk howner => hother ?_
        rw [← howner, s.db.games.eq_of_key_eq hg hgame hpk]

theorem invariant_updateMapGames (hinv : Invariant s) {gameId : GameId}
    (horder : InTurn s (.updateMapGames gameId)) :
    Invariant { s with
      db := ((Tasks.updateMapGames gameId).run s.db).2
      mapTasks := s.mapTasks.erase gameId } := by
  rw [Tasks.updateMapGames]
  cases hfind : s.db.games.find? gameId with
  | none =>
    rw [Tasks.run_getGame_of_none hfind]
    exact ⟨hinv.consistent, hinv.servers, fun map hmap => (hinv.maps map hmap).skip
      (not_owned_of_none hfind), hinv.profiles⟩
  | some game =>
    obtain ⟨hgame, rfl⟩ := Table.find?_eq_some_iff.mp hfind
    rw [Tasks.run_getGame hfind, MapManager.run_updateGameStatsWithGame]
    obtain ⟨⟨hservers, hmaps, hplayers, haliases⟩, hcounted, hmapCounts, hprofiles⟩ := hinv
    refine ⟨⟨hservers, fun g hg => ?_, hplayers, haliases⟩, hcounted, fun map' hmap' => ?_,
      hprofiles⟩
    · refine Table.exists_mem_update (fun _ => ?_) (hmaps g hg)
      rfl
    · obtain ⟨map, hmap, rfl⟩ := List.mem_map.mp hmap'
      obtain howner | hother := eq_or_ne map.pk game.map
      · rw [if_pos (decide_eq_true howner)]
        exact (hmapCounts map hmap).record hgame s.db.games.nodup howner.symm
          (fun t => latest_le (horder game hgame rfl map hmap howner)) fun t => stats_record
      · rw [if_neg (by simpa using hother)]
        refine (hmapCounts map hmap).skip fun g hg hpk howner => hother ?_
        rw [← howner, s.db.games.eq_of_key_eq hg hgame hpk]

theorem shows_seenIn {db : Database} {game : Game} {profile : Profile} {t : Tally Game}
    (hplayed : playedIn db game.pk profile.pk) (h : Shows profile t) :
    Shows (StatsWatermark.seenIn db game profile) (t.record Game.pk game) := by
  obtain ⟨hfirst, hfirstAt, hlast, hlastAt⟩ := h
  rw [StatsWatermark.seenIn, if_pos hplayed]
  refine ⟨?_, ?_, ?_, ?_⟩
  · simp only [hfirst, Tally.record]
    cases t.first with
    | none => rfl
    | some first => rfl
  · simp only [hfirst, hfirstAt, Tally.record]
    cases t.first with
    | none => rfl
    | some first => rfl
  · simp only [Tally.record]
    split
    · rename_i hsame
      exact hsame.symm
    · rfl
  · simp only [hlast, hlastAt, Tally.record]
    split
    · rfl
    · rfl

theorem invariant_updateProfileGames (hinv : Invariant s) {gameId : GameId}
    (horder : InTurn s (.updateProfileGames gameId)) :
    Invariant { s with
      db := ((Tasks.updateProfileGames gameId).run s.db).2
      profileTasks := s.profileTasks.erase gameId } := by
  rw [Tasks.updateProfileGames]
  cases hfind : s.db.games.find? gameId with
  | none =>
    rw [Tasks.run_getGame_of_none hfind]
    exact ⟨hinv.consistent, hinv.servers, hinv.maps, fun profile hprofile =>
      (hinv.profiles profile hprofile).skip (not_owned_of_none hfind)⟩
  | some game =>
    obtain ⟨hgame, rfl⟩ := Table.find?_eq_some_iff.mp hfind
    rw [Tasks.run_getGame hfind]
    obtain ⟨_, _, _, hrows⟩ := StatsWatermark.run_updateWithGame game s.db
    obtain ⟨⟨hservers, hmaps, hplayers, haliases⟩, hcounted, hmapCounts, hprofiles⟩ := hinv
    refine ⟨⟨hservers, hmaps, hplayers, fun a ha => ?_⟩, hcounted, hmapCounts,
      fun profile' hprofile' => ?_⟩
    · obtain ⟨owner, howner, hpk⟩ := haliases a ha
      rw [hrows]
      exact ⟨_, List.mem_map_of_mem howner, StatsWatermark.pk_seenIn.trans hpk⟩
    · rw [hrows] at hprofile'
      obtain ⟨profile, hprofile, rfl⟩ := List.mem_map.mp hprofile'
      rw [StatsWatermark.pk_seenIn]
      obtain hplayed | hother := Classical.em (playedIn s.db game.pk profile.pk = true)
      · refine (hprofiles profile hprofile).record hgame s.db.games.nodup hplayed ?_
          fun t => shows_seenIn hplayed
        rintro t ⟨_, _, hlast, _⟩ latest hlatest
        apply horder profile hprofile hplayed latest.pk
        rw [hlast]
        exact Option.mem_map_of_mem Game.pk hlatest
      · rw [StatsWatermark.seenIn_of_not_played hother]
        refine (hprofiles profile hprofile).skip fun g _ hpk hplayed => hother ?_
        rw [← hpk]
        exact hplayed

def movedGame (mainId : ServerId) (mergedIds : List ServerId) (g : Game) : Game :=
  if g.server ∈ mergedIds then { g with server := mainId } else g

theorem movedGame_columns (mainId : ServerId) (mergedIds : List ServerId) (g : Game) :
    (movedGame mainId mergedIds g).pk = g.pk ∧
      (movedGame mainId mergedIds g).dateFinished = g.dateFinished ∧
      (movedGame mainId mergedIds g).map = g.map := by
  unfold movedGame
  split
  · exact ⟨rfl, rfl, rfl⟩
  · exact ⟨rfl, rfl, rfl⟩

theorem server_movedGame {mainId id : ServerId} {mergedIds : List ServerId}
    (hid : id ∉ mainId :: mergedIds) (g : Game) :
    (movedGame mainId mergedIds g).server = id ↔ g.server = id := by
  rw [List.mem_cons, not_or] at hid
  unfold movedGame
  split
  · rename_i hmerged
    constructor
    · intro hmain
      exact absurd hmain.symm hid.1
    · rintro rfl
      exact absurd hmerged hid.2
  · rfl

theorem counts_denormalised {db : Database} {server : Server} {tasks : List GameId}
    {stats : GameStats} (h : ServerManager.IsGameStats db.games.rows server.pk stats) :
    Counts db.games.rows (fun g => g.server = server.pk) tasks
      fun t => stats = GameStats.ofTally t := by
  obtain ⟨l, hsorted, hl⟩ := db.games.exists_ordered fun g => g.server = server.pk
  exact ⟨_, Tally.accounts_of_all hsorted hl, h.eq_ofTally db.games.nodup hsorted hl⟩

theorem invariant_mergeServers (hinv : Invariant s) (now : Time) (mainId : ServerId)
    (mergedIds : List ServerId) :
    Invariant { s with db := ((Tasks.mergeServers now mainId mergedIds).run s.db).2 } := by
  obtain ⟨_, key, hrun⟩ | ⟨message, hrun⟩ | ⟨main, hmain, rfl, _, _, _, db', hrun, h⟩ :=
    Tasks.run_mergeServers now mainId mergedIds s.db
  · rw [hrun]
    exact hinv
  · rw [hrun]
    exact hinv
  rw [hrun]
  have hgames : db'.games.rows = s.db.games.rows.map (movedGame main.pk mergedIds) := h.games
  have hframe := h.frame
  have hmaps : db'.maps = s.db.maps := by rw [hframe]
  have hprofiles : db'.profiles = s.db.profiles := by rw [hframe]
  have haliases : db'.aliases = s.db.aliases := by rw [hframe]
  have hplayers : db'.players = s.db.players := by rw [hframe]
  have hplayed : playedIn db' = playedIn s.db := by
    funext game profile
    rw [playedIn, playedIn, haliases, hplayers]
  have hpks : ∀ s' ∈ s.db.servers.rows, ∃ s'' ∈ db'.servers.rows, s''.pk = s'.pk := by
    intro s' hs'
    have hmem : s'.pk ∈ db'.servers.rows.map Server.pk := h.pks ▸ List.mem_map_of_mem hs'
    obtain ⟨s'', hs'', hpk⟩ := List.mem_map.mp hmem
    exact ⟨s'', hs'', hpk⟩
  refine ⟨⟨fun g hg => ?_, fun g hg => ?_, ?_, ?_⟩, fun server' hserver' => ?_, ?_, ?_⟩
  · rw [hgames] at hg
    obtain ⟨old, hold, rfl⟩ := List.mem_map.mp hg
    unfold movedGame
    split
    · exact hpks main hmain
    · obtain ⟨owner, howner, hpk⟩ := hinv.consistent.gameServers old hold
      rw [← hpk]
      exact hpks owner howner
  · rw [hgames] at hg
    obtain ⟨old, hold, rfl⟩ := List.mem_map.mp hg
    rw [hmaps, (movedGame_columns _ _ _).2.2]
    exact hinv.consistent.gameMaps old hold
  · rw [hplayers, haliases]
    exact hinv.consistent.playerAliases
  · rw [haliases, hprofiles]
    exact hinv.consistent.aliasProfiles
  · obtain ⟨server, hserver, stats, rfl⟩ := MergeGraph.mem_of_mergeOutcome h hserver'
    obtain ⟨stats', hfind, hrecounted, hkept⟩ := h.servers server hserver
    have hpk : { ServerManager.mergedServer now main.pk mergedIds server with stats }.pk =
        server.pk := ServerManager.mergedServer_pk
    rw [← hpk, Table.find?_of_mem hserver', Option.some_inj] at hfind
    obtain rfl : stats = stats' := congrArg Server.stats hfind
    obtain hid | hid := Classical.em (server.pk ∈ main.pk :: mergedIds)
    · apply counts_denormalised
      rw [hpk]
      exact hrecounted hid
    · rw [hgames]
      refine (hinv.servers server hserver).map (fun g => (movedGame_columns _ _ g).1)
        (fun g _ => ?_) fun t ht => ?_
      · rw [hpk]
        exact server_movedGame hid g
      · rw [GameStats.ofTally_map (fun g => (movedGame_columns _ _ g).1) fun g =>
          (movedGame_columns _ _ g).2.1, ← ht]
        exact hkept hid
  · rw [hgames, hmaps]
    intro map hmap
    refine (hinv.maps map hmap).map (fun g => (movedGame_columns _ _ g).1) (fun g _ => ?_)
      fun t ht => ?_
    · rw [(movedGame_columns _ _ g).2.2]
    · rw [GameStats.ofTally_map (fun g => (movedGame_columns _ _ g).1) fun g =>
        (movedGame_columns _ _ g).2.1]
      exact ht
  · rw [hgames, hprofiles, hplayed]
    intro profile hprofile
    refine (hinv.profiles profile hprofile).map (fun g => (movedGame_columns _ _ g).1)
      (fun g _ => ?_) fun t ht => ?_
    · rw [(movedGame_columns _ _ g).1]
    · obtain ⟨hfirst, hfirstAt, hlast, hlastAt⟩ := ht
      have hpk : Game.pk ∘ movedGame main.pk mergedIds = Game.pk :=
        funext fun g => (movedGame_columns _ _ g).1
      have hdate : Game.dateFinished ∘ movedGame main.pk mergedIds = Game.dateFinished :=
        funext fun g => (movedGame_columns _ _ g).2.1
      refine ⟨?_, ?_, ?_, ?_⟩
      · rw [Option.map_map, hpk, hfirst]
      · rw [Option.map_map, hdate, hfirstAt]
      · rw [Option.map_map, hpk, hlast]
      · rw [Option.map_map, hdate, hlastAt]

theorem invariant_step (s : State) (e : Event) (hinv : Invariant s) (henabled : system.enabled s e)
    (horder : InTurn s e) : Invariant (system.next s e) := by
  cases e with
  | createServer ip port enabled => exact invariant_createServer hinv ip port enabled
  | createMap name slug => exact invariant_createMap hinv name slug
  | createProfile name => exact invariant_createProfile hinv name
  | createAlias name profile isp now => exact invariant_createAlias hinv name isp now henabled
  | commitGame game players => exact invariant_commitGame hinv henabled
  | updateServerGames gameId => exact invariant_updateServerGames hinv horder
  | updateMapGames gameId => exact invariant_updateMapGames hinv horder
  | updateProfileGames gameId => exact invariant_updateProfileGames hinv horder
  | mergeServers now mainId mergedIds => exact invariant_mergeServers hinv now mainId mergedIds

end Steps

/-- Nothing is queued, and every counter is right. -/
structure Initial (s : State) : Prop where
  consistent : Consistent s.db
  drained : Drained s
  agrees : Agrees s.db

section Runs

variable {s : State}

theorem shows_of_agrees {db : Database} {profile : Profile} {l : List Game}
    (h : ProfileAgrees db profile) (hsorted : InOrder l)
    (hl : ∀ g, g ∈ l ↔ g ∈ db.games.rows ∧ playedIn db g.pk profile.pk) :
    Shows profile (Tally.of l) := by
  cases hlast : l.getLast? with
  | none =>
    obtain rfl := List.getLast?_eq_none_iff.mp hlast
    obtain ⟨hfirst, hfirstAt, hlast, hlastAt⟩ := h.noGames fun g hg hplayed =>
      List.not_mem_nil ((hl g).mpr ⟨hg, hplayed⟩)
    exact ⟨hfirst, hfirstAt, hlast, hlastAt⟩
  | some last =>
    obtain ⟨first, hfirst⟩ : ∃ first, l.head? = some first := by
      cases l with
      | nil => cases hlast
      | cons first rest => exact ⟨first, rfl⟩
    obtain ⟨hmem, hplayed⟩ := (hl first).mp (List.mem_of_head? hfirst)
    obtain ⟨hgameFirst, hfirstAt⟩ := h.first first hmem hplayed fun g hg hgplayed =>
      Tally.le_of_head? hsorted hfirst ((hl g).mpr ⟨hg, hgplayed⟩)
    obtain ⟨hmem, hplayed⟩ := (hl last).mp (List.mem_of_getLast? hlast)
    obtain ⟨hgameLast, hlastAt⟩ := h.last last hmem hplayed fun g hg hgplayed =>
      Tally.le_of_getLast? hsorted hlast ((hl g).mpr ⟨hg, hgplayed⟩)
    simp only [Shows, Tally.of, hfirst, hlast, Option.map_some]
    exact ⟨hgameFirst, hfirstAt, hgameLast, hlastAt⟩

theorem agrees_of_shows {db : Database} {profile : Profile} {l : List Game} (hsorted : InOrder l)
    (hl : ∀ g, g ∈ l ↔ g ∈ db.games.rows ∧ playedIn db g.pk profile.pk)
    (h : Shows profile (Tally.of l)) : ProfileAgrees db profile := by
  obtain ⟨hfirst, hfirstAt, hlast, hlastAt⟩ := h
  have hinj : ∀ g ∈ l, ∀ g' ∈ l, g.pk = g'.pk → g = g' := fun g hg g' hg' hpk =>
    db.games.eq_of_key_eq ((hl g).mp hg).1 ((hl g').mp hg').1 hpk
  refine ⟨fun hnone => ?_, fun g hg hplayed hleast => ?_, fun g hg hplayed hgreatest => ?_⟩
  · have hnil : l = [] := List.eq_nil_iff_forall_not_mem.mpr fun g hg =>
      hnone g ((hl g).mp hg).1 ((hl g).mp hg).2
    rw [hnil] at hfirst hfirstAt hlast hlastAt
    exact ⟨hfirst, hfirstAt, hlast, hlastAt⟩
  · have hgl := (hl g).mpr ⟨hg, hplayed⟩
    obtain ⟨first, hhead⟩ : ∃ first, l.head? = some first := by
      cases l with
      | nil => cases hgl
      | cons first rest => exact ⟨first, rfl⟩
    have hmem := List.mem_of_head? hhead
    have hpk := hleast first ((hl first).mp hmem).1 ((hl first).mp hmem).2
    obtain rfl := hinj g hgl first hmem (hpk.antisymm (Tally.le_of_head? hsorted hhead hgl))
    rw [Tally.of, hhead] at hfirst hfirstAt
    exact ⟨hfirst, hfirstAt⟩
  · have hgl := (hl g).mpr ⟨hg, hplayed⟩
    obtain ⟨last, htail⟩ : ∃ last, l.getLast? = some last :=
      ⟨_, List.getLast?_eq_some_getLast (List.ne_nil_of_mem hgl)⟩
    have hmem := List.mem_of_getLast? htail
    have hpk := hgreatest last ((hl last).mp hmem).1 ((hl last).mp hmem).2
    obtain rfl := hinj g hgl last hmem ((Tally.le_of_getLast? hsorted htail hgl).antisymm hpk)
    rw [Tally.of, htail] at hlast hlastAt
    exact ⟨hlast, hlastAt⟩

theorem invariant_of_initial (h : Initial s) : Invariant s := by
  refine ⟨h.consistent, fun server hserver => ?_, fun map hmap => ?_, fun profile hprofile => ?_⟩
  · obtain ⟨l, hsorted, hl⟩ := s.db.games.exists_ordered fun g => g.server = server.pk
    have hstats := h.agrees.servers server hserver [server.pk] List.mem_cons_self
    rw [ServerManager.find?_denormGameStats List.mem_cons_self hsorted hl
      (Table.find?_of_mem hserver)] at hstats
    exact ⟨_, Tally.accounts_of_all hsorted hl,
      (congrArg Server.stats (Option.some_inj.mp hstats)).symm⟩
  · obtain ⟨l, hsorted, hl⟩ := s.db.games.exists_ordered fun g => g.map = map.pk
    have hstats := h.agrees.maps map hmap [map.pk] List.mem_cons_self
    rw [MapManager.find?_denormGameStats List.mem_cons_self hsorted hl
      (Table.find?_of_mem hmap)] at hstats
    exact ⟨_, Tally.accounts_of_all hsorted hl,
      (congrArg GameMap.stats (Option.some_inj.mp hstats)).symm⟩
  · obtain ⟨l, hsorted, hl⟩ := s.db.games.exists_ordered fun g =>
      playedIn s.db g.pk profile.pk
    exact ⟨_, Tally.accounts_of_all hsorted hl,
      shows_of_agrees (h.agrees.profiles profile hprofile) hsorted hl⟩

theorem agrees_of_drained (hinv : Invariant s) (h : Drained s) : Agrees s.db := by
  obtain ⟨hserverTasks, hmapTasks, hprofileTasks⟩ := h
  refine ⟨fun server hserver ids hid => ?_, fun map hmap ids hid => ?_,
    fun profile hprofile => ?_⟩
  · obtain ⟨t, ht, hstats⟩ := hinv.servers server hserver
    obtain ⟨l, hsorted, hl, rfl⟩ := ht.complete (by simp [hserverTasks])
    rw [ServerManager.find?_denormGameStats hid hsorted hl (Table.find?_of_mem hserver), ← hstats]
  · obtain ⟨t, ht, hstats⟩ := hinv.maps map hmap
    obtain ⟨l, hsorted, hl, rfl⟩ := ht.complete (by simp [hmapTasks])
    rw [MapManager.find?_denormGameStats hid hsorted hl (Table.find?_of_mem hmap), ← hstats]
  · obtain ⟨t, ht, hshows⟩ := hinv.profiles profile hprofile
    obtain ⟨l, hsorted, hl, rfl⟩ := ht.complete (by simp [hprofileTasks])
    exact agrees_of_shows hsorted hl hshows

/-- Whenever all tasks have run and none was out of turn, a batch recomputation would change
nothing, and the profiles have the dates of their first and last games. -/
theorem agrees_of_run {s₀ s : State} {es : List Event} (hinit : Initial s₀)
    (hrun : Run (system.restrict InTurn) s₀ es s) (h : Drained s) : Agrees s.db :=
  agrees_of_drained (hrun.invariant_restrict invariant_step (invariant_of_initial hinit)) h

end Runs

section Example

def emptyState : State := ⟨Database.empty, [], [], []⟩

theorem initial_emptyState : Initial emptyState :=
  ⟨⟨by simp [emptyState, Database.empty], by simp [emptyState, Database.empty],
      by simp [emptyState, Database.empty], by simp [emptyState, Database.empty]⟩,
    ⟨rfl, rfl, rfl⟩,
    ⟨by simp [emptyState, Database.empty], by simp [emptyState, Database.empty],
      by simp [emptyState, Database.empty]⟩⟩

/-- A server and a map, and two games without players. -/
def twoCommits : List Event :=
  [.createServer 1 10480 true, .createMap "A-Bomb Nightclub" "a-bomb-nightclub",
    .commitGame (GameCounters.numberedGame 1) [], .commitGame (GameCounters.numberedGame 2) []]

def restOfTasks : List Event :=
  [.updateMapGames 1, .updateMapGames 2, .updateProfileGames 1, .updateProfileGames 2]

def tasksInTurn : List Event :=
  twoCommits ++ [.updateServerGames 1, .updateServerGames 2] ++ restOfTasks

def tasksOutOfTurn : List Event :=
  twoCommits ++ [.updateServerGames 2, .updateServerGames 1] ++ restOfTasks

instance (db : Database) (game : Game) (players : List (Player × List Weapon)) :
    Decidable (Committable db game players) :=
  decidable_of_iff ((∀ g ∈ db.games.rows, g.pk ≠ game.pk) ∧
      (∃ s ∈ db.servers.rows, s.pk = game.server) ∧ (∃ m ∈ db.maps.rows, m.pk = game.map) ∧
      ∀ entry ∈ players, ∃ a ∈ db.aliases.rows, a.pk = entry.1.aliasId)
    ⟨fun ⟨hfresh, hserver, hmap, haliases⟩ => ⟨hfresh, hserver, hmap, haliases⟩,
      fun ⟨hfresh, hserver, hmap, haliases⟩ => ⟨hfresh, hserver, hmap, haliases⟩⟩

instance (s : State) : ∀ e, Decidable (system.enabled s e)
  | .createServer _ _ _ | .createMap _ _ | .createProfile _ | .mergeServers _ _ _ =>
    inferInstanceAs (Decidable True)
  | .createAlias _ profile _ _ =>
    inferInstanceAs (Decidable (∃ p ∈ s.db.profiles.rows, p.pk = profile))
  | .commitGame game players => inferInstanceAs (Decidable (Committable s.db game players))
  | .updateServerGames gameId => inferInstanceAs (Decidable (gameId ∈ s.serverTasks))
  | .updateMapGames gameId => inferInstanceAs (Decidable (gameId ∈ s.mapTasks))
  | .updateProfileGames gameId => inferInstanceAs (Decidable (gameId ∈ s.profileTasks))

instance (s : State) : ∀ e, Decidable (InTurn s e)
  | .createServer _ _ _ | .createMap _ _ | .createProfile _ | .createAlias _ _ _ _
  | .commitGame _ _ | .mergeServers _ _ _ => inferInstanceAs (Decidable True)
  | .updateServerGames gameId => inferInstanceAs (Decidable (∀ g ∈ s.db.games.rows, g.pk = gameId →
      ∀ server ∈ s.db.servers.rows, server.pk = g.server →
        ∀ latest ∈ server.stats.latestGame, latest ≤ gameId))
  | .updateMapGames gameId => inferInstanceAs (Decidable (∀ g ∈ s.db.games.rows, g.pk = gameId →
      ∀ map ∈ s.db.maps.rows, map.pk = g.map → ∀ latest ∈ map.stats.latestGame, latest ≤ gameId))
  | .updateProfileGames gameId => inferInstanceAs (Decidable (∀ profile ∈ s.db.profiles.rows,
      playedIn s.db gameId profile.pk → ∀ last ∈ profile.gameLast, last ≤ gameId))

theorem agrees_of_tasksInTurn :
    ((tasksInTurn.foldl system.next emptyState).db.servers.rows.map Server.stats =
      [⟨2, some 1, some 100, some 2, some 200⟩]) ∧
    Agrees (tasksInTurn.foldl system.next emptyState).db :=
  ⟨by decide, agrees_of_run initial_emptyState
    (Run.of_admits (M := system.restrict InTurn) (by decide +kernel)) ⟨rfl, rfl, rfl⟩⟩

/-- The task of the first game runs after that of the second one. -/
theorem tasksOutOfTurn_disagree :
    ¬ ∀ (s₀ s : State) (es : List Event), Initial s₀ → Run system s₀ es s → Drained s →
      Agrees s.db := by
  intro h
  have hadmits : system.Admits emptyState tasksOutOfTurn := by decide +kernel
  have hagrees := h _ _ _ initial_emptyState (Run.of_admits hadmits) ⟨rfl, rfl, rfl⟩
  have hserver := hagrees.servers
    { pk := 1, ip := 1, port := 10480, stats := ⟨2, some 2, some 200, some 1, some 100⟩ }
    (by decide) [1] (by decide)
  revert hserver
  decide

end Example

end CounterRace

end Swat4Stats
