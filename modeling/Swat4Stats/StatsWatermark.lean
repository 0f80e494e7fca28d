import Swat4Stats.AnnualStats

/-!
# When the stats of a profile are updated

Whether a profile needs an update is told by two of its columns: `last_seen_at` is the time the
data of its last game was received, `stats_updated_at` the time of its last update. Only the year
of `last_seen_at` is updated. Games are committed, and their tasks run, at any later time.
-/

namespace Swat4Stats

set_option autoImplicit false

open Tx Transition

namespace StatsWatermark

open ProfileManager

structure Commit where
  game : Game
  committedAt : Time

/-- A call of `update_annual_stats_for_profile`. -/
structure Execution where
  profile : ProfileId
  year : ℕ
  executedAt : Time
  /-- whether the year was an actual period for the profile -/
  actual : Bool

structure State where
  db : Database
  now : Time
  /-- The profiles whose update is queued. -/
  queue : List ProfileId
  commits : List Commit
  /-- The games whose `update_profile_games` has run. -/
  updated : List GameId
  executions : List Execution

inductive Event where
  | commitGame (now : Time) (game : Game) (players : List (Player × List Weapon))
  | updateProfileGames (now : Time) (game : GameId)
  | updatePlayerStats (now : Time)
  | updatePlayerStatsForProfile (now : Time) (profile : ProfileId)

def Event.now : Event → Time
  | commitGame now _ _ => now
  | updateProfileGames now _ => now
  | updatePlayerStats now => now
  | updatePlayerStatsForProfile now _ => now

def commitGame (now : Time) (game : Game) (players : List (Player × List Weapon)) (s : State) :
    State :=
  { s with
    now
    db := AnnualStats.addGame game players s.db
    commits := s.commits ++ [⟨{ game with pk := s.db.games.nextPk }, now⟩] }

def updateProfileGames (now : Time) (game : GameId) (s : State) : State :=
  match s.db.games.find? game with
  | some game =>
    { s with now, db := ((updateWithGame game).run s.db).2, updated := game.pk :: s.updated }
  | none => { s with now }

def updatePlayerStats (now : Time) (s : State) : State :=
  { s with
    now
    queue := s.queue ++ (s.db.profiles.rows.filter requiresStatsUpdate).map Profile.pk }

def annualExecutions (profile : Profile) (now : Time) : List Execution :=
  match profile.lastSeenAt with
  | some lastSeenAt =>
    let year := Calendar.yearOf lastSeenAt
    [⟨profile.pk, year, now, (_getAnnualPeriodForProfile profile year).isSome⟩]
  | none => []

def updatePlayerStatsForProfile (now : Time) (profile : ProfileId) (s : State) : State :=
  match s.db.profiles.find? profile with
  | some row =>
    { s with
      now
      db := ((updateStatsForProfile row now).run s.db).2
      queue := s.queue.erase profile
      executions := s.executions ++ annualExecutions row now }
  | none => { s with now, queue := s.queue.erase profile }

/-- The clock is strictly increasing; the data of a game is received before it is committed. -/
def system : System State Event where
  enabled s e := s.now < e.now ∧
    match e with
    | .commitGame now game _ => game.dateFinished ≤ now
    | .updatePlayerStatsForProfile _ profile => profile ∈ s.queue
    | _ => True
  next s
    | .commitGame now game players => commitGame now game players s
    | .updateProfileGames now game => updateProfileGames now game s
    | .updatePlayerStats now => updatePlayerStats now s
    | .updatePlayerStatsForProfile now profile => updatePlayerStatsForProfile now profile s

/-- Every game of a profile that needs no update was followed by an update for its year, once the
tasks of all games have run. -/
def NoGameLost (s : State) : Prop :=
  (∀ c ∈ s.commits, c.game.pk ∈ s.updated) →
    ∀ profile ∈ s.db.profiles.rows, requiresStatsUpdate profile = false →
      ∀ c ∈ s.commits, playedIn s.db c.game.pk profile.pk →
        ∃ e ∈ s.executions, e.profile = profile.pk ∧
          e.year = Calendar.yearOf c.game.dateFinished ∧ c.committedAt < e.executedAt

/-- `instant` is later than the last update of the profile, if there is any. -/
def IsNew (profile : Profile) (instant : Time) : Prop :=
  ∀ updatedAt ∈ profile.statsUpdatedAt, updatedAt < instant

def plays (db : Database) (players : List (Player × List Weapon)) (profile : ProfileId) : Bool :=
  db.aliases.rows.any fun a => a.profile = profile ∧
    players.any fun entry => entry.1.aliasId = a.pk

/-- A game is committed before the stats of its players are updated past it; the task of an older
game does not set `last_seen_at` back behind the last update; and no update passes over a new game
of another year. -/
def Timely (s : State) : Event → Prop
  | .commitGame _ game players => ∀ profile ∈ s.db.profiles.rows,
      plays s.db players profile.pk → IsNew profile game.dateFinished
  | .updateProfileGames _ game => ∀ g ∈ s.db.games.rows, g.pk = game →
      ∀ profile ∈ s.db.profiles.rows, playedIn s.db game profile.pk →
        IsNew profile g.dateFinished ∨ ∀ lastSeenAt ∈ profile.lastSeenAt, ¬ IsNew profile lastSeenAt
  | .updatePlayerStats _ => True
  | .updatePlayerStatsForProfile _ profile => ∀ row ∈ s.db.profiles.rows, row.pk = profile →
      ∀ g ∈ s.db.games.rows, playedIn s.db g.pk profile → IsNew row g.dateFinished →
        ∀ lastSeenAt ∈ row.lastSeenAt,
          Calendar.yearOf g.dateFinished = Calendar.yearOf lastSeenAt

theorem addPlayers_tables (game : GameId) (players : List (Player × List Weapon)) (db : Database) :
    (players.foldl (AnnualStats.addPlayer game) db).games = db.games ∧
      (players.foldl (AnnualStats.addPlayer game) db).servers = db.servers ∧
      (players.foldl (AnnualStats.addPlayer game) db).maps = db.maps ∧
      (players.foldl (AnnualStats.addPlayer game) db).aliases = db.aliases ∧
      (players.foldl (AnnualStats.addPlayer game) db).profiles = db.profiles ∧
      ∀ aliasId pk, (∃ player ∈ (players.foldl (AnnualStats.addPlayer game) db).players.rows,
          player.aliasId = aliasId ∧ player.game = pk) ↔
        (∃ player ∈ db.players.rows, player.aliasId = aliasId ∧ player.game = pk) ∨
          pk = game ∧ ∃ entry ∈ players, entry.1.aliasId = aliasId := by
  induction players generalizing db with
  | nil => simp
  | cons entry players ih =>
    obtain ⟨hgames, hservers, hmaps, haliases, hprofiles, hrows⟩ :=
      ih (AnnualStats.addPlayer game db entry)
    refine ⟨hgames, hservers, hmaps, haliases, hprofiles,
      fun aliasId pk => (hrows aliasId pk).trans ?_⟩
    simp only [AnnualStats.addPlayer, Table.mem_create, List.exists_mem_cons_iff, or_and_right,
      exists_or, exists_eq_left]
    grind

theorem addGame_tables (game : Game) (players : List (Player × List Weapon)) (db : Database) :
    (AnnualStats.addGame game players db).games.rows =
        db.games.rows ++ [{ game with pk := db.games.nextPk }] ∧
      (AnnualStats.addGame game players db).aliases = db.aliases ∧
      (AnnualStats.addGame game players db).profiles = db.profiles ∧
      ∀ aliasId pk, (∃ player ∈ (AnnualStats.addGame game players db).players.rows,
          player.aliasId = aliasId ∧ player.game = pk) ↔
        (∃ player ∈ db.players.rows, player.aliasId = aliasId ∧ player.game = pk) ∨
          pk = db.games.nextPk ∧ ∃ entry ∈ players, entry.1.aliasId = aliasId := by
  obtain ⟨hgames, _, _, haliases, hprofiles, hrows⟩ := addPlayers_tables db.games.nextPk players
    { db with games := db.games.create (fun pk => { game with pk }) game.withPk_pk }
  exact ⟨congrArg Table.rows hgames, haliases, hprofiles, hrows⟩

theorem playedIn_iff {db : Database} {game : GameId} {profile : ProfileId} :
    playedIn db game profile ↔ ∃ a ∈ db.aliases.rows, a.profile = profile ∧
      ∃ player ∈ db.players.rows, player.aliasId = a.pk ∧ player.game = game := by
  simp [playedIn]

theorem playedIn_addGame {game : Game} {players : List (Player × List Weapon)} {db : Database}
    {pk : GameId} {profile : ProfileId} :
    playedIn (AnnualStats.addGame game players db) pk profile ↔
      playedIn db pk profile ∨ pk = db.games.nextPk ∧ plays db players profile := by
  obtain ⟨_, haliases, _, hrows⟩ := addGame_tables game players db
  simp only [playedIn_iff, haliases, hrows, plays, List.any_eq_true, decide_eq_true_eq]
  grind

theorem run_updateStatsForProfile (profile : Profile) (now : Time) (db : Database) :
    ((updateStatsForProfile profile now).run db).2.games = db.games ∧
      ((updateStatsForProfile profile now).run db).2.players = db.players ∧
      ((updateStatsForProfile profile now).run db).2.aliases = db.aliases ∧
      ((updateStatsForProfile profile now).run db).2.profiles =
        db.profiles.update (fun p => p.pk = profile.pk)
          (fun p => { p with statsUpdatedAt := some now }) fun _ => rfl := by
  rw [updateStatsForProfile, run_bind, updateLatestAnnualStats]
  cases profile.lastSeenAt with
  | none => exact ⟨rfl, rfl, rfl, rfl⟩
  | some lastSeenAt =>
    simp only [updateAnnualStatsForProfile]
    cases _getAnnualPeriodForProfile profile (Calendar.yearOf lastSeenAt) with
    | none => exact ⟨rfl, rfl, rfl, rfl⟩
    | some period =>
      simp only [run_bind, run_read, saveAnnualStats, run_atomic, run_write, markStatsUpdated,
        and_self]

def seenIn (db : Database) (game : Game) (profile : Profile) : Profile :=
  if playedIn db game.pk profile.pk then
    { profile with
      gameFirst := profile.gameFirst.or (some game.pk)
      firstSeenAt :=
        if profile.gameFirst = none then some game.dateFinished else profile.firstSeenAt
      gameLast := some game.pk
      lastSeenAt := if profile.gameLast = some game.pk then profile.lastSeenAt
        else some game.dateFinished }
  else
    profile

theorem run_updateWithGame (game : Game) (db : Database) :
    ((updateWithGame game).run db).2.games = db.games ∧
      ((updateWithGame game).run db).2.players = db.players ∧
      ((updateWithGame game).run db).2.aliases = db.aliases ∧
      ((updateWithGame game).run db).2.profiles.rows = db.profiles.rows.map (seenIn db game) := by
  refine ⟨rfl, rfl, rfl, ?_⟩
  have hframe : ∀ profiles pk, playedIn { db with profiles } game.pk pk = playedIn db game.pk pk :=
    fun _ _ => rfl
  simp only [updateWithGame, updateFirstGame, updateLastGame, run_atomic, run_bind, run_write,
    hframe]
  rw [Table.rows_update, Table.rows_update, List.map_map]
  apply List.map_congr_left
  rintro ⟨pk, name, first, last, firstSeenAt, lastSeenAt, statsUpdatedAt, aliasUpdatedAt⟩ _
  simp only [Function.comp_apply, seenIn, decide_eq_true_eq]
  cases hplayed : playedIn db game.pk pk with
  | false => simp [hplayed]
  | true =>
    obtain rfl | hlast := eq_or_ne last (some game.pk)
    · cases first with
      | none => simp [hplayed]
      | some first => simp
    · cases first with
      | none => simp [hplayed, hlast]
      | some first => simp [hplayed, hlast]

/-- An update that was not skipped has counted the game. -/
def Counted (s : State) (profile : ProfileId) (c : Commit) : Prop :=
  ∃ e ∈ s.executions, e.profile = profile ∧ e.year = Calendar.yearOf c.game.dateFinished ∧
    c.committedAt < e.executedAt ∧ e.actual = true

/-- The game is new, and once its task has run the profile needs an update. -/
structure Waiting (s : State) (profile : Profile) (c : Commit) : Prop where
  isNew : IsNew profile c.game.dateFinished
  seen : c.game.pk ∈ s.updated → ∃ lastSeenAt ∈ profile.lastSeenAt, IsNew profile lastSeenAt

/-- A game of the profile and its date, unless both are null. -/
def SeenIn (s : State) (profile : ProfileId) (game : Option GameId) (seenAt : Option Time) : Prop :=
  game = none ∧ seenAt = none ∨
    ∃ c ∈ s.commits, playedIn s.db c.game.pk profile ∧ game = some c.game.pk ∧
      seenAt = some c.game.dateFinished

structure ProfileInvariant (s : State) (profile : Profile) : Prop where
  firstSeen : SeenIn s profile.pk profile.gameFirst profile.firstSeenAt
  lastSeen : SeenIn s profile.pk profile.gameLast profile.lastSeenAt
  played : profile.lastSeenAt ≠ none → profile.firstSeenAt ≠ none
  statsUpdated : ∀ updatedAt ∈ profile.statsUpdatedAt, updatedAt ≤ s.now
  executed : ∀ e ∈ s.executions, e.profile = profile.pk → ¬ IsNew profile e.executedAt
  counted : ∀ c ∈ s.commits, playedIn s.db c.game.pk profile.pk →
    Counted s profile.pk c ∨ Waiting s profile c

structure Invariant (s : State) : Prop where
  games : s.db.games.rows = s.commits.map Commit.game
  players : ∀ player ∈ s.db.players.rows, ∃ c ∈ s.commits, c.game.pk = player.game
  received : ∀ c ∈ s.commits, c.game.dateFinished ≤ c.committedAt ∧ c.committedAt ≤ s.now
  updated : ∀ game ∈ s.updated, ∃ c ∈ s.commits, c.game.pk = game
  queue : ∀ profile ∈ s.db.profiles.rows, profile.pk ∈ s.queue → profile.lastSeenAt ≠ none
  profiles : ∀ profile ∈ s.db.profiles.rows, ProfileInvariant s profile

section Steps

variable {s s' : State} {profile : Profile}

theorem Counted.mono {c : Commit} {pk : ProfileId} (h : Counted s pk c)
    (hexecutions : ∀ e ∈ s.executions, e ∈ s'.executions) : Counted s' pk c := by
  obtain ⟨e, he, hcounted⟩ := h
  exact ⟨e, hexecutions e he, hcounted⟩

theorem SeenIn.mono {pk : ProfileId} {game : Option GameId} {seenAt : Option Time}
    (h : SeenIn s pk game seenAt) (hcommits : ∀ c ∈ s.commits, c ∈ s'.commits)
    (hplayed : ∀ c ∈ s.commits, playedIn s'.db c.game.pk pk = playedIn s.db c.game.pk pk) :
    SeenIn s' pk game seenAt := by
  rcases h with h | ⟨c, hc, hin, hgame, hseen⟩
  · exact .inl h
  · exact .inr ⟨c, hcommits c hc, (hplayed c hc).trans hin, hgame, hseen⟩

theorem ProfileInvariant.mono (hinv : ProfileInvariant s profile) (hnow : s.now ≤ s'.now)
    (hcommits : s'.commits = s.commits)
    (hplayed : ∀ game pk, playedIn s'.db game pk = playedIn s.db game pk)
    (hupdated : ∀ game ∈ s'.updated, playedIn s.db game profile.pk → game ∈ s.updated)
    (hkept : ∀ e ∈ s.executions, e ∈ s'.executions)
    (hnew : ∀ e ∈ s'.executions, e.profile = profile.pk → e ∈ s.executions) :
    ProfileInvariant s' profile where
  firstSeen := hinv.firstSeen.mono (fun c hc => hcommits ▸ hc) fun c _ => hplayed c.game.pk _
  lastSeen := hinv.lastSeen.mono (fun c hc => hcommits ▸ hc) fun c _ => hplayed c.game.pk _
  played := hinv.played
  statsUpdated t ht := (hinv.statsUpdated t ht).trans hnow
  executed e he hpk := hinv.executed e (hnew e he hpk) hpk
  counted c hc hin := by
    rw [hcommits] at hc
    rw [hplayed] at hin
    rcases hinv.counted c hc hin with hcounted | ⟨hisNew, hseen⟩
    · exact .inl (hcounted.mono hkept)
    · exact .inr ⟨hisNew, fun hgame => hseen (hupdated _ hgame hin)⟩

theorem Invariant.lt_nextPk (hinv : Invariant s) {c : Commit} (hc : c ∈ s.commits) :
    c.game.pk < s.db.games.nextPk := by
  apply Table.lt_nextPk
  rw [hinv.games]
  exact List.mem_map_of_mem hc

theorem Invariant.game_eq (hinv : Invariant s) {c : Commit} (hc : c ∈ s.commits) {game : Game}
    (hgame : game ∈ s.db.games.rows) (hpk : c.game.pk = game.pk) : c.game = game := by
  refine s.db.games.eq_of_key_eq ?_ hgame hpk
  rw [hinv.games]
  exact List.mem_map_of_mem hc

theorem invariant_commitGame {now : Time} {game : Game} {players : List (Player × List Weapon)}
    (hinv : Invariant s) (hnow : s.now < now) (hreceived : game.dateFinished ≤ now)
    (hsafe : Timely s (.commitGame now game players)) :
    Invariant (commitGame now game players s) := by
  obtain ⟨hgames, _, hprofiles, hplayers⟩ := addGame_tables game players s.db
  have hunplayed : ∀ pk, ¬ playedIn s.db s.db.games.nextPk pk := by
    intro pk hin
    obtain ⟨_, _, _, player, hplayer, _, hgame⟩ := playedIn_iff.mp hin
    obtain ⟨c, hc, hpk⟩ := hinv.players player hplayer
    exact absurd (hpk.trans hgame) (hinv.lt_nextPk hc).ne
  have hplayed : ∀ c ∈ s.commits, ∀ pk, playedIn (AnnualStats.addGame game players s.db)
      c.game.pk pk = playedIn s.db c.game.pk pk := by
    intro c hc pk
    have hne := (hinv.lt_nextPk hc).ne
    rw [Bool.eq_iff_iff, playedIn_addGame]
    simp [hne]
  refine ⟨?_, ?_, ?_, ?_, ?_, ?_⟩
  · simp only [commitGame, List.map_append, hgames, hinv.games]
    rfl
  · intro player hplayer
    rcases (hplayers player.aliasId player.game).mp ⟨player, hplayer, rfl, rfl⟩ with
      ⟨old, hold, _, hgame⟩ | ⟨hgame, _⟩
    · obtain ⟨c, hc, hpk⟩ := hinv.players old hold
      exact ⟨c, List.mem_append_left _ hc, hpk.trans hgame⟩
    · exact ⟨_, List.mem_append_right _ (List.mem_singleton.mpr rfl), hgame.symm⟩
  · intro c hc
    rcases List.mem_append.mp hc with hc | hc
    · exact ⟨(hinv.received c hc).1, (hinv.received c hc).2.trans hnow.le⟩
    · obtain rfl := List.mem_singleton.mp hc
      exact ⟨hreceived, le_rfl⟩
  · intro g hg
    obtain ⟨c, hc, hpk⟩ := hinv.updated g hg
    exact ⟨c, List.mem_append_left _ hc, hpk⟩
  · intro profile hprofile
    exact hinv.queue profile (hprofiles ▸ hprofile)
  · intro profile hprofile
    have hmem : profile ∈ s.db.profiles.rows := hprofiles ▸ hprofile
    obtain ⟨hfirst, hlast, hboth, hstats, hexecuted, hcounted⟩ := hinv.profiles profile hmem
    refine ⟨hfirst.mono (fun c hc => List.mem_append_left _ hc) fun c hc => hplayed c hc _,
      hlast.mono (fun c hc => List.mem_append_left _ hc) fun c hc => hplayed c hc _, hboth,
      fun t ht => (hstats t ht).trans hnow.le, hexecuted, ?_⟩
    intro c hc hin
    rcases List.mem_append.mp hc with hc | hc
    · exact (hcounted c hc ((hplayed c hc _).symm.trans hin)).imp_right fun h => ⟨h.isNew, h.seen⟩
    · obtain rfl := List.mem_singleton.mp hc
      refine .inr ⟨?_, ?_⟩
      · rcases playedIn_addGame.mp hin with hin | ⟨_, hin⟩
        · exact absurd hin (hunplayed _)
        · exact hsafe profile hmem hin
      · intro hupdated
        obtain ⟨c, hc, hpk⟩ := hinv.updated _ hupdated
        exact absurd hpk (hinv.lt_nextPk hc).ne

section SeenIn

variable {c₀ : Commit}

theorem seenIn_of_not_played {db : Database} {game : Game} (h : ¬ playedIn db game.pk profile.pk) :
    seenIn db game profile = profile := if_neg h

theorem gameLast_seenIn {db : Database} {game : Game} (h : playedIn db game.pk profile.pk) :
    (seenIn db game profile).gameLast = some game.pk := by
  simp [seenIn, h]

theorem statsUpdatedAt_seenIn {db : Database} {game : Game} :
    (seenIn db game profile).statsUpdatedAt = profile.statsUpdatedAt := by
  rw [seenIn]
  split
  · rfl
  · rfl

theorem pk_seenIn {db : Database} {game : Game} : (seenIn db game profile).pk = profile.pk := by
  rw [seenIn]
  split
  · rfl
  · rfl

theorem lastSeenAt_seenIn (hinv : Invariant s) (hc₀ : c₀ ∈ s.commits)
    (hprofile : ProfileInvariant s profile) (hin : playedIn s.db c₀.game.pk profile.pk) :
    (seenIn s.db c₀.game profile).lastSeenAt = some c₀.game.dateFinished := by
  rw [seenIn, if_pos hin]
  dsimp only
  split
  · rename_i hsame
    rcases hprofile.lastSeen with ⟨hnone, _⟩ | ⟨c, hc, _, hgame, hseen⟩
    · rw [hnone] at hsame
      cases hsame
    · have hpk : c.game.pk = c₀.game.pk := Option.some_inj.mp (hgame.symm.trans hsame)
      have hmem : c₀.game ∈ s.db.games.rows := by
        rw [hinv.games]
        exact List.mem_map_of_mem hc₀
      rw [hseen, hinv.game_eq hc hmem hpk]
  · rfl

theorem firstSeen_seenIn (hc₀ : c₀ ∈ s.commits) (hprofile : ProfileInvariant s profile)
    (hin : playedIn s.db c₀.game.pk profile.pk) :
    SeenIn s profile.pk (seenIn s.db c₀.game profile).gameFirst
        (seenIn s.db c₀.game profile).firstSeenAt ∧
      (seenIn s.db c₀.game profile).firstSeenAt ≠ none := by
  rw [seenIn, if_pos hin]
  dsimp only
  rcases hprofile.firstSeen with ⟨hnone, _⟩ | ⟨c, hc, hcin, hgame, hseen⟩
  · rw [hnone]
    exact ⟨.inr ⟨c₀, hc₀, hin, rfl, rfl⟩, by simp⟩
  · rw [hgame, hseen]
    exact ⟨.inr ⟨c, hc, hcin, rfl, rfl⟩, by simp⟩

theorem ProfileInvariant.seenIn (hinv : Invariant s) (hc₀ : c₀ ∈ s.commits)
    (hprofile : ProfileInvariant s profile) (hin : playedIn s.db c₀.game.pk profile.pk)
    (hsafe : IsNew profile c₀.game.dateFinished ∨
      ∀ lastSeenAt ∈ profile.lastSeenAt, ¬ IsNew profile lastSeenAt)
    (hnow : s.now ≤ s'.now) (hcommits : s'.commits = s.commits)
    (hplayed : ∀ game pk, playedIn s'.db game pk = playedIn s.db game pk)
    (hupdated : s'.updated = c₀.game.pk :: s.updated) (hexecutions : s'.executions = s.executions) :
    ProfileInvariant s' (seenIn s.db c₀.game profile) := by
  obtain ⟨hfirst, hseen⟩ := firstSeen_seenIn hc₀ hprofile hin
  have hlast := lastSeenAt_seenIn hinv hc₀ hprofile hin
  have hmem : c₀.game ∈ s.db.games.rows := by
    rw [hinv.games]
    exact List.mem_map_of_mem hc₀
  refine ⟨?_, ?_, fun _ => hseen, ?_, ?_, ?_⟩
  · rw [pk_seenIn]
    exact hfirst.mono (fun c hc => hcommits ▸ hc) fun c _ => hplayed _ _
  · rw [pk_seenIn, gameLast_seenIn hin, hlast]
    exact .inr ⟨c₀, hcommits ▸ hc₀, (hplayed _ _).trans hin, rfl, rfl⟩
  · rw [statsUpdatedAt_seenIn]
    exact fun t ht => (hprofile.statsUpdated t ht).trans hnow
  · rw [pk_seenIn, hexecutions]
    simp only [IsNew, statsUpdatedAt_seenIn]
    exact hprofile.executed
  · intro c hc hcin
    rw [hcommits] at hc
    rw [pk_seenIn] at hcin ⊢
    rw [hplayed] at hcin
    rcases hprofile.counted c hc hcin with hcounted | ⟨hisNew, hwaiting⟩
    · exact .inl (hcounted.mono fun e he => hexecutions ▸ he)
    · refine .inr ⟨?_, ?_⟩
      · rwa [IsNew, statsUpdatedAt_seenIn]
      · intro hc'
        rw [hupdated] at hc'
        refine ⟨_, hlast, ?_⟩
        rw [IsNew, statsUpdatedAt_seenIn]
        rcases List.mem_cons.mp hc' with hsame | hold
        · rwa [hinv.game_eq hc hmem hsame] at hisNew
        · obtain ⟨lastSeenAt, hlastSeenAt, hpending⟩ := hwaiting hold
          rcases hsafe with hsafe | hsafe
          · exact hsafe
          · exact absurd hpending (hsafe lastSeenAt hlastSeenAt)

end SeenIn

theorem invariant_updateProfileGames {now : Time} {pk : GameId} (hinv : Invariant s)
    (hnow : s.now < now) (hsafe : Timely s (.updateProfileGames now pk)) :
    Invariant (updateProfileGames now pk s) := by
  rw [updateProfileGames]
  cases hfind : s.db.games.find? pk with
  | none =>
    exact ⟨hinv.games, hinv.players,
      fun c hc => ⟨(hinv.received c hc).1, (hinv.received c hc).2.trans hnow.le⟩, hinv.updated,
      hinv.queue, fun profile hprofile => (hinv.profiles profile hprofile).mono hnow.le rfl
        (fun _ _ => rfl) (fun _ h _ => h) (fun _ h => h) fun _ h _ => h⟩
  | some game =>
    obtain ⟨hgame, rfl⟩ := Table.find?_eq_some_iff.mp hfind
    obtain ⟨hgames, hplayers, haliases, hprofiles⟩ := run_updateWithGame game s.db
    have hplayed : ∀ g profile, playedIn ((updateWithGame game).run s.db).2 g profile =
        playedIn s.db g profile := by
      intro g profile
      rw [playedIn, playedIn, haliases, hplayers]
    obtain ⟨c₀, hc₀, rfl⟩ : ∃ c ∈ s.commits, c.game = game := by
      rw [hinv.games] at hgame
      exact List.mem_map.mp hgame
    refine ⟨hgames ▸ hinv.games, hplayers ▸ hinv.players,
      fun c hc => ⟨(hinv.received c hc).1, (hinv.received c hc).2.trans hnow.le⟩, ?_, ?_, ?_⟩
    · intro g hg
      rcases List.mem_cons.mp hg with rfl | hg
      · exact ⟨c₀, hc₀, rfl⟩
      · exact hinv.updated g hg
    · intro profile hprofile hqueue
      simp only [hprofiles] at hprofile
      obtain ⟨old, hold, rfl⟩ := List.mem_map.mp hprofile
      cases hin : playedIn s.db c₀.game.pk old.pk with
      | true => simp [lastSeenAt_seenIn hinv hc₀ (hinv.profiles old hold) hin]
      | false =>
        rw [seenIn_of_not_played (by simp [hin])] at hqueue ⊢
        exact hinv.queue old hold hqueue
    · intro profile hprofile
      simp only [hprofiles] at hprofile
      obtain ⟨old, hold, rfl⟩ := List.mem_map.mp hprofile
      cases hin : playedIn s.db c₀.game.pk old.pk with
      | true =>
        exact (hinv.profiles old hold).seenIn hinv hc₀ hin (hsafe _ hgame rfl old hold hin) hnow.le
          rfl hplayed rfl rfl
      | false =>
        rw [seenIn_of_not_played (by simp [hin])]
        refine (hinv.profiles old hold).mono hnow.le rfl hplayed ?_ (fun _ h => h) fun _ h _ => h
        intro g hg hplayedIn
        rcases List.mem_cons.mp hg with rfl | hg
        · rw [hin] at hplayedIn
          cases hplayedIn
        · exact hg

theorem invariant_updatePlayerStats {now : Time} (hinv : Invariant s) (hnow : s.now < now) :
    Invariant (updatePlayerStats now s) := by
  refine ⟨hinv.games, hinv.players,
    fun c hc => ⟨(hinv.received c hc).1, (hinv.received c hc).2.trans hnow.le⟩, hinv.updated, ?_,
    fun profile hprofile => (hinv.profiles profile hprofile).mono hnow.le rfl (fun _ _ => rfl)
      (fun _ h _ => h) (fun _ h => h) fun _ h _ => h⟩
  intro profile hprofile hqueue
  rcases List.mem_append.mp hqueue with hqueue | hqueue
  · exact hinv.queue profile hprofile hqueue
  · obtain ⟨row, hrow, hpk⟩ := List.mem_map.mp hqueue
    obtain ⟨hmem, hselected⟩ := List.mem_filter.mp hrow
    rw [← s.db.profiles.eq_of_key_eq hmem hprofile hpk]
    intro hnone
    rw [requiresStatsUpdate, hnone] at hselected
    cases hfirst : row.firstSeenAt with
    | none => simp [hfirst] at hselected
    | some firstSeenAt => simp [hfirst] at hselected

theorem isSome_annualPeriod_of_le {year : ℕ}
    (hfirst : ∀ firstSeenAt ∈ profile.firstSeenAt, Calendar.yearOf firstSeenAt ≤ year)
    (hlast : ∀ lastSeenAt ∈ profile.lastSeenAt, year ≤ Calendar.yearOf lastSeenAt) :
    (_getAnnualPeriodForProfile profile year).isSome := by
  have hnotAfter : ¬ profile.firstSeenAt.any fun firstSeenAt =>
      (Calendar.statsPeriodForYear year).2 < firstSeenAt := by
    intro hafter
    obtain ⟨firstSeenAt, hsome, hlt⟩ := (Option.any_eq_true _ _).mp hafter
    have hend := Calendar.lt_yearStart (Nat.lt_succ_of_le (hfirst firstSeenAt hsome))
    exact absurd (Nat.le_pred_of_lt hend) (Nat.not_le_of_lt (of_decide_eq_true hlt))
  have hnotBefore : ¬ profile.lastSeenAt.any fun lastSeenAt =>
      (Calendar.statsPeriodForYear year).1 > lastSeenAt := by
    intro hbefore
    obtain ⟨lastSeenAt, hsome, hlt⟩ := (Option.any_eq_true _ _).mp hbefore
    exact absurd (Calendar.yearStart_le (hlast lastSeenAt hsome))
      (Nat.not_le_of_lt (of_decide_eq_true hlt))
  rw [_getAnnualPeriodForProfile, if_neg hnotAfter, if_neg hnotBefore]
  rfl

/-- The year of a game that an update finds new is an actual period for the profile. -/
theorem ProfileInvariant.isSome_annualPeriod (hinv : Invariant s)
    (hprofile : ProfileInvariant s profile) {lastSeenAt : Time}
    (hlast : profile.lastSeenAt = some lastSeenAt)
    (hsafe : ∀ c ∈ s.commits, playedIn s.db c.game.pk profile.pk →
      IsNew profile c.game.dateFinished →
        Calendar.yearOf c.game.dateFinished = Calendar.yearOf lastSeenAt)
    {c : Commit} (hc : c ∈ s.commits) (hin : playedIn s.db c.game.pk profile.pk)
    (hisNew : IsNew profile c.game.dateFinished) :
    (_getAnnualPeriodForProfile profile (Calendar.yearOf lastSeenAt)).isSome := by
  apply isSome_annualPeriod_of_le
  · intro firstSeenAt hfirst
    rcases hprofile.firstSeen with ⟨_, hnone⟩ | ⟨c₁, hc₁, hin₁, _, hseen⟩
    · rw [hnone] at hfirst
      cases hfirst
    · obtain rfl : c₁.game.dateFinished = firstSeenAt :=
        Option.some_inj.mp (hseen.symm.trans hfirst)
      rcases hprofile.counted c₁ hc₁ hin₁ with ⟨e, he, hpk, _, hcommitted, _⟩ | hwaiting
      · -- the first game is older than the last update, and so than the new game
        have hold := hprofile.executed e he hpk
        rw [← hsafe c hc hin hisNew]
        apply Calendar.yearOf_mono
        by_contra hlt
        refine hold fun updatedAt hupdatedAt => ?_
        calc
          updatedAt < c.game.dateFinished := hisNew updatedAt hupdatedAt
          _ < c₁.game.dateFinished := lt_of_not_ge hlt
          _ ≤ c₁.committedAt := (hinv.received c₁ hc₁).1
          _ < e.executedAt := hcommitted
      · exact (hsafe c₁ hc₁ hin₁ hwaiting.isNew).le
  · intro lastSeenAt' hlast'
    obtain rfl : lastSeenAt = lastSeenAt' := Option.some_inj.mp (hlast.symm.trans hlast')
    exact le_rfl

theorem ProfileInvariant.update (hinv : Invariant s) (hprofile : ProfileInvariant s profile)
    {lastSeenAt : Time} (hlast : profile.lastSeenAt = some lastSeenAt)
    (hsafe : ∀ c ∈ s.commits, playedIn s.db c.game.pk profile.pk →
      IsNew profile c.game.dateFinished →
        Calendar.yearOf c.game.dateFinished = Calendar.yearOf lastSeenAt)
    (hnow : s.now < s'.now) (hcommits : s'.commits = s.commits)
    (hplayed : ∀ game pk, playedIn s'.db game pk = playedIn s.db game pk)
    (hexecutions : s'.executions = s.executions ++ annualExecutions profile s'.now) :
    ProfileInvariant s' { profile with statsUpdatedAt := some s'.now } := by
  rw [annualExecutions, hlast] at hexecutions
  refine ⟨hprofile.firstSeen.mono (fun c hc => hcommits ▸ hc) fun c _ => hplayed _ _,
    hprofile.lastSeen.mono (fun c hc => hcommits ▸ hc) fun c _ => hplayed _ _, hprofile.played,
    ?_, ?_, ?_⟩
  · rintro updatedAt ⟨⟩
    exact le_rfl
  · intro e he hpk hisNew
    have hlater : s'.now < e.executedAt := hisNew _ rfl
    rw [hexecutions] at he
    rcases List.mem_append.mp he with he | he
    · refine hprofile.executed e he hpk fun updatedAt hupdatedAt => ?_
      exact (hprofile.statsUpdated updatedAt hupdatedAt).trans_lt (hnow.trans hlater)
    · obtain rfl := List.mem_singleton.mp he
      exact absurd hlater (lt_irrefl _)
  · intro c hc hin
    rw [hcommits] at hc
    rw [hplayed] at hin
    left
    rcases hprofile.counted c hc hin with hcounted | ⟨hisNew, _⟩
    · exact hcounted.mono fun e he => hexecutions ▸ List.mem_append_left _ he
    · refine ⟨_, hexecutions ▸ List.mem_append_right _ (List.mem_singleton.mpr rfl), rfl,
        (hsafe c hc hin hisNew).symm, (hinv.received c hc).2.trans_lt hnow, ?_⟩
      exact hprofile.isSome_annualPeriod hinv hlast hsafe hc hin hisNew

theorem invariant_updatePlayerStatsForProfile {now : Time} {pk : ProfileId} (hinv : Invariant s)
    (hnow : s.now < now) (hqueued : pk ∈ s.queue)
    (hsafe : Timely s (.updatePlayerStatsForProfile now pk)) :
    Invariant (updatePlayerStatsForProfile now pk s) := by
  rw [updatePlayerStatsForProfile]
  cases hfind : s.db.profiles.find? pk with
  | none =>
    exact ⟨hinv.games, hinv.players,
      fun c hc => ⟨(hinv.received c hc).1, (hinv.received c hc).2.trans hnow.le⟩, hinv.updated,
      fun profile hprofile hq => hinv.queue profile hprofile (List.mem_of_mem_erase hq),
      fun profile hprofile => (hinv.profiles profile hprofile).mono hnow.le rfl
        (fun _ _ => rfl) (fun _ h _ => h) (fun _ h => h) fun _ h _ => h⟩
  | some row =>
    obtain ⟨hrow, rfl⟩ := Table.find?_eq_some_iff.mp hfind
    obtain ⟨hgames, hplayers, haliases, hprofiles⟩ := run_updateStatsForProfile row now s.db
    have hplayed : ∀ g profile, playedIn ((updateStatsForProfile row now).run s.db).2 g profile =
        playedIn s.db g profile := by
      intro g profile
      rw [playedIn, playedIn, haliases, hplayers]
    obtain ⟨lastSeenAt, hlast⟩ := Option.ne_none_iff_exists'.mp (hinv.queue row hrow hqueued)
    have hnewYear : ∀ c ∈ s.commits, playedIn s.db c.game.pk row.pk →
        IsNew row c.game.dateFinished →
          Calendar.yearOf c.game.dateFinished = Calendar.yearOf lastSeenAt := by
      intro c hc hin hisNew
      refine hsafe row hrow rfl c.game ?_ hin hisNew lastSeenAt hlast
      rw [hinv.games]
      exact List.mem_map_of_mem hc
    refine ⟨hgames ▸ hinv.games, hplayers ▸ hinv.players,
      fun c hc => ⟨(hinv.received c hc).1, (hinv.received c hc).2.trans hnow.le⟩, hinv.updated,
      ?_, ?_⟩
    · intro profile hprofile hq
      simp only [hprofiles] at hprofile
      obtain ⟨old, hold, hcopy⟩ := Table.mem_update.mp hprofile
      have hq := List.mem_of_mem_erase hq
      split at hcopy
      · subst hcopy
        exact hinv.queue old hold hq
      · subst hcopy
        exact hinv.queue old hold hq
    · intro profile hprofile
      simp only [hprofiles] at hprofile
      obtain ⟨old, hold, hcopy⟩ := Table.mem_update.mp hprofile
      split at hcopy
      · rename_i hsame
        obtain rfl : old = row := s.db.profiles.eq_of_key_eq hold hrow (by simpa using hsame)
        subst hcopy
        refine (hinv.profiles old hold).update hinv hlast hnewYear ?_ ?_ ?_ ?_
        · exact hnow
        · rfl
        · exact hplayed
        · rfl
      · rename_i hother
        subst hcopy
        refine (hinv.profiles old hold).mono ?_ ?_ ?_ ?_ ?_ ?_
        · exact hnow.le
        · rfl
        · exact hplayed
        · exact fun _ h _ => h
        · exact fun _ h => List.mem_append_left _ h
        · intro e he hpk
          rcases List.mem_append.mp he with he | he
          · exact he
          · rw [annualExecutions, hlast] at he
            obtain rfl := List.mem_singleton.mp he
            exact absurd hpk.symm (by simpa using hother)

end Steps

theorem invariant_step (s : State) (e : Event) (hinv : Invariant s) (henabled : system.enabled s e)
    (hsafe : Timely s e) : Invariant (system.next s e) := by
  cases e with
  | commitGame now game players => exact invariant_commitGame hinv henabled.1 henabled.2 hsafe
  | updateProfileGames now game => exact invariant_updateProfileGames hinv henabled.1 hsafe
  | updatePlayerStats now => exact invariant_updatePlayerStats hinv henabled.1
  | updatePlayerStatsForProfile now profile =>
    exact invariant_updatePlayerStatsForProfile hinv henabled.1 henabled.2 hsafe

/-- No games yet, and profiles that have never been seen. -/
structure Initial (s : State) : Prop where
  games : s.db.games.rows = []
  players : s.db.players.rows = []
  profiles : ∀ profile ∈ s.db.profiles.rows, profile.gameFirst = none ∧ profile.gameLast = none ∧
    profile.firstSeenAt = none ∧ profile.lastSeenAt = none ∧ profile.statsUpdatedAt = none
  queue : s.queue = []
  commits : s.commits = []
  updated : s.updated = []
  executions : s.executions = []

theorem invariant_of_initial {s : State} (h : Initial s) : Invariant s := by
  obtain ⟨hgames, hplayers, hprofiles, hqueue, hcommits, hupdated, hexecutions⟩ := h
  refine ⟨by simp [hgames, hcommits], by simp [hplayers], by simp [hcommits], by simp [hupdated],
    by simp [hqueue], ?_⟩
  intro profile hprofile
  obtain ⟨hfirst, hlast, hfirstSeen, hlastSeen, hstats⟩ := hprofiles profile hprofile
  exact ⟨.inl ⟨hfirst, hfirstSeen⟩, .inl ⟨hlast, hlastSeen⟩, fun h => absurd hlastSeen h,
    by simp [hstats], by simp [hexecutions], by simp [hcommits]⟩

theorem requiresStatsUpdate_of_waiting {s : State} {profile : Profile} {c : Commit}
    (hprofile : ProfileInvariant s profile) (hwaiting : Waiting s profile c)
    (hupdated : c.game.pk ∈ s.updated) : requiresStatsUpdate profile = true := by
  obtain ⟨lastSeenAt, hlast, hisNew⟩ := hwaiting.seen hupdated
  have hlast : profile.lastSeenAt = some lastSeenAt := hlast
  obtain ⟨firstSeenAt, hfirst⟩ :=
    Option.ne_none_iff_exists'.mp (hprofile.played (by simp [hlast]))
  rw [requiresStatsUpdate, hfirst, hlast]
  cases hstats : profile.statsUpdatedAt with
  | none => rfl
  | some updatedAt => simpa using hisNew updatedAt hstats

/-- Once all tasks have run and the profile needs no update, every game was counted by an update
that was not skipped. -/
theorem counted_of_invariant {s : State} (hinv : Invariant s)
    (hupdated : ∀ c ∈ s.commits, c.game.pk ∈ s.updated) {profile : Profile}
    (hprofile : profile ∈ s.db.profiles.rows) (hsettled : requiresStatsUpdate profile = false)
    {c : Commit} (hc : c ∈ s.commits) (hin : playedIn s.db c.game.pk profile.pk) :
    Counted s profile.pk c := by
  rcases (hinv.profiles profile hprofile).counted c hc hin with hcounted | hwaiting
  · exact hcounted
  · have hselected :=
      requiresStatsUpdate_of_waiting (hinv.profiles profile hprofile) hwaiting (hupdated c hc)
    rw [hsettled] at hselected
    cases hselected

theorem noGameLost_of_run {s₀ s : State} {es : List Event} (hinit : Initial s₀)
    (hrun : Run (system.restrict Timely) s₀ es s) : NoGameLost s := by
  have hinv := Run.invariant_restrict (M := system) invariant_step hrun (invariant_of_initial hinit)
  intro hupdated profile hprofile hsettled c hc hin
  obtain ⟨e, he, hpk, hyear, hlater, _⟩ :=
    counted_of_invariant hinv hupdated hprofile hsettled hc hin
  exact ⟨e, he, hpk, hyear, hlater⟩

instance (s : State) (e : Event) : Decidable (system.enabled s e) :=
  match e with
  | .commitGame .. => inferInstanceAs (Decidable (_ ∧ _ ≤ _))
  | .updateProfileGames .. | .updatePlayerStats _ => inferInstanceAs (Decidable (_ ∧ True))
  | .updatePlayerStatsForProfile .. => inferInstanceAs (Decidable (_ ∧ _ ∈ _))

instance (profile : Profile) (instant : Time) : Decidable (IsNew profile instant) :=
  inferInstanceAs (Decidable (∀ updatedAt ∈ profile.statsUpdatedAt, updatedAt < instant))

instance (s : State) (e : Event) : Decidable (Timely s e) :=
  match e with
  | .commitGame .. => inferInstanceAs (Decidable (∀ _ ∈ _, _ → IsNew _ _))
  | .updateProfileGames .. => inferInstanceAs (Decidable (∀ _ ∈ _, _ → ∀ _ ∈ _, _ → _ ∨ ∀ _ ∈ _, _))
  | .updatePlayerStats _ => inferInstanceAs (Decidable True)
  | .updatePlayerStatsForProfile .. =>
    inferInstanceAs (Decidable (∀ _ ∈ _, _ → ∀ _ ∈ _, _ → _ → ∀ _ ∈ _, _))

instance (s : State) : Decidable (NoGameLost s) :=
  inferInstanceAs (Decidable ((∀ _ ∈ _, _) → ∀ _ ∈ _, _ → ∀ _ ∈ _, _ → ∃ _ ∈ _, _))

def sampleState : State where
  db := { AnnualStats.sampleDatabase with
    profiles := Table.empty.create (fun pk => { pk, name := none }) fun _ => rfl }
  now := 0
  queue := []
  commits := []
  updated := []
  executions := []

theorem initial_sampleState : Initial sampleState := by
  refine ⟨rfl, rfl, ?_, rfl, rfl, rfl, rfl⟩
  decide

def receivedAt (dateFinished : Time) : Game := { sampleGame with dateFinished }

/-- The first instant of 2024. -/
def newYear : Time := Calendar.yearStart 2024

def commitAt (now dateFinished : Time) : Event :=
  .commitGame now (receivedAt dateFinished) [(AnnualStats.samplePlayer 10, [])]

def promptGame : List Event :=
  [commitAt (newYear + 1) newYear, .updateProfileGames (newYear + 2) 1,
    .updatePlayerStats (newYear + 3), .updatePlayerStatsForProfile (newYear + 4) 1]

theorem noGameLost_of_promptGame :
    (promptGame.foldl system.next sampleState).executions.map Execution.year = [2024] ∧
    NoGameLost (promptGame.foldl system.next sampleState) := by
  have hadmits : (system.restrict Timely).Admits sampleState promptGame := by decide +kernel
  exact ⟨by decide +kernel, noGameLost_of_run initial_sampleState (Run.of_admits hadmits)⟩

/-- The data of two games is received, but the second game is committed after the update that the
first one leads to. -/
def delayedCommit : List Event :=
  [commitAt (newYear + 2) newYear, .updateProfileGames (newYear + 3) 1,
    .updatePlayerStats (newYear + 4), .updatePlayerStatsForProfile (newYear + 5) 1,
    commitAt (newYear + 6) (newYear + 1), .updateProfileGames (newYear + 7) 2]

theorem delayedCommit_loses_game :
    ∃ s, Initial sampleState ∧ Run system sampleState delayedCommit s ∧ ¬ NoGameLost s := by
  have hadmits : system.Admits sampleState delayedCommit := by decide +kernel
  exact ⟨_, initial_sampleState, Run.of_admits hadmits, by decide +kernel⟩

/-- A game at the end of a year and a game at the beginning of the next one, before an update. -/
def yearBoundary : List Event :=
  [commitAt (newYear - 2) (newYear - 3), .updateProfileGames (newYear - 1) 1,
    commitAt (newYear + 1) newYear, .updateProfileGames (newYear + 2) 2,
    .updatePlayerStats (newYear + 3), .updatePlayerStatsForProfile (newYear + 4) 1]

theorem yearBoundary_loses_game :
    ∃ s, Initial sampleState ∧ Run system sampleState yearBoundary s ∧ ¬ NoGameLost s := by
  have hadmits : system.Admits sampleState yearBoundary := by decide +kernel
  exact ⟨_, initial_sampleState, Run.of_admits hadmits, by decide +kernel⟩

end StatsWatermark

end Swat4Stats
