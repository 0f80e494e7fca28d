import Swat4Stats.GameIngestion
import Swat4Stats.Library.Cursor

/-!
# Ranks of coop games

`fill_game_coop_ranks` gives a rank to the games that were stored before games had one. It reads
and writes chunk by chunk, while games are saved and moved, and any number of its runs may go on at
once or be cut off.
-/

namespace Swat4Stats

set_option autoImplicit false

open Tx Transition

namespace CoopRanks

open GameManager GameIngestion

/-- The query of the command. -/
def isUnranked (game : Game) : Bool := game.gametype = .coOp ∧ game.coopRank = none

/-- A run of the command: where its iteration is, and the games that it has loaded and not updated
yet. -/
structure Fill where
  cursor : Cursor
  gamesToUpdate : Option (List Game)

def Fill.first : Fill := ⟨.after 0, none⟩

structure State where
  db : Database
  fills : ℕ → Option Fill

inductive Event where
  | start (worker : ℕ)
  | nextChunk (worker : ℕ)
  | loadGames (worker : ℕ)
  | bulkUpdate (worker : ℕ)
  | cutOff (worker : ℕ)
  /-- A worker saves a game that was streamed. -/
  | deliver (delivery : Delivery)
  /-- The rest of the database changes, and the servers that games belong to. -/
  | elsewhere (change : Database → Database)

def nextChunk (chunkSize : ℕ) (lastPk : GameId) (db : Database) : Cursor :=
  match Cursor.read chunkSize isUnranked db.games lastPk with
  -- an empty chunk ends the loop
  | .page [] => .finished
  | cursor => cursor

def withCoopRank (game : Game) : Game :=
  { game with coopRank := calculateCoopRankForScore game.coopScore }

/-- The second query, for the games of a chunk that still have no rank. -/
def loadGames (gameIds : List GameId) (db : Database) : List Game :=
  (db.games.rows.filter fun game => game.pk ∈ gameIds ∧ isUnranked game).map withCoopRank

/-- `bulk_update` of the one column. -/
def bulkUpdate (gamesToUpdate : List Game) (db : Database) : Database :=
  { db with
    games := db.games.update (fun row => (gamesToUpdate.find? fun game => game.pk = row.pk).isSome)
      (fun row => { row with
        coopRank := (gamesToUpdate.find? fun game => game.pk = row.pk).bind Game.coopRank })
      fun _ => rfl }

def State.set (s : State) (worker : ℕ) (fill : Option Fill) : State :=
  { s with fills := fun other => if other = worker then fill else s.fills other }

/-- A game without the columns that others write. -/
def core (game : Game) : Game := { game with server := 0, coopRank := none }

def system (outside : External) (chunkSize : ℕ) : System State Event where
  enabled s
    | .nextChunk worker => ∃ lastPk, s.fills worker = some ⟨.after lastPk, none⟩
    | .loadGames worker => ∃ gameIds, s.fills worker = some ⟨.page gameIds, none⟩
    | .bulkUpdate worker => ∃ gameIds games, s.fills worker = some ⟨.page gameIds, some games⟩
    | .elsewhere change => (change s.db).games.rows.map (fun game => (core game, game.coopRank)) =
      s.db.games.rows.map fun game => (core game, game.coopRank)
    | .start _ | .cutOff _ | .deliver _ => True
  next s
    | .start worker => s.set worker (some .first)
    | .nextChunk worker =>
      match s.fills worker with
      | some ⟨.after lastPk, _⟩ =>
        s.set worker (some ⟨CoopRanks.nextChunk chunkSize lastPk s.db, none⟩)
      | _ => s
    | .loadGames worker =>
      match s.fills worker with
      | some ⟨.page gameIds, _⟩ =>
        s.set worker (some ⟨.page gameIds, some (CoopRanks.loadGames gameIds s.db)⟩)
      | _ => s
    | .bulkUpdate worker =>
      match s.fills worker with
      | some ⟨.page gameIds, some games⟩ =>
        { s.set worker (some ⟨Cursor.advance chunkSize gameIds, none⟩) with
          db := CoopRanks.bulkUpdate games s.db }
      | _ => s
    | .cutOff worker => s.set worker none
    | .deliver delivery => { s with db := (attempt outside delivery s.db).2.db }
    | .elsewhere change => { s with db := change s.db }

/-- No bound is below every score. -/
def Reaches (score : ℤ) (bound : Option ℤ) : Prop := ∀ minScore ∈ bound, minScore ≤ score

/-- The rank has the highest of the bounds that the score reaches. -/
def IsRankFor (score : ℤ) (rank : CoopRank) : Prop :=
  ∃ bound, (bound, rank) ∈ coopMinScoreForRank ∧ Reaches score bound ∧
    ∀ entry ∈ coopMinScoreForRank, Reaches score entry.1 →
      ∀ minScore ∈ entry.1, ∃ highest ∈ bound, minScore ≤ highest

theorem reaches_iff {score : ℤ} {bound : Option ℤ} :
    (bound.all fun minScore => minScore ≤ score) = true ↔ Reaches score bound := by
  cases bound with
  | none => simp [Reaches]
  | some minScore => simp [Reaches]

theorem exists_isRankFor (score : ℤ) :
    ∃ rank, calculateCoopRankForScore score = some rank ∧ IsRankFor score rank := by
  have hdescending : coopMinScoreForRank.Pairwise fun higher lower =>
      ∀ minScore ∈ lower.1, ∃ highest ∈ higher.1, minScore ≤ highest := by
    simp [coopMinScoreForRank]
  cases hfind : coopMinScoreForRank.find? fun entry =>
      entry.1.all fun minScore => minScore ≤ score with
  | none =>
    -- the last bound is below every score
    have hmenace := List.find?_eq_none.mp hfind (none, .menace) (by decide)
    simp at hmenace
  | some entry =>
    have hreached := List.find?_some hfind
    refine ⟨entry.2, by rw [calculateCoopRankForScore, hfind, Option.map_some], entry.1,
      List.mem_of_find?_eq_some hfind, reaches_iff.mp hreached, ?_⟩
    obtain ⟨_, before, after, hlist, hbefore⟩ := List.find?_eq_some_iff_append.mp hfind
    rw [hlist] at hdescending ⊢
    intro other hother hreaches minScore hminScore
    obtain hother | hother := List.mem_append.mp hother
    · have hnot := hbefore other hother
      rw [reaches_iff.mpr hreaches] at hnot
      cases hnot
    · obtain rfl | hother := List.mem_cons.mp hother
      · exact ⟨minScore, hminScore, le_refl minScore⟩
      · exact (List.pairwise_cons.mp (List.pairwise_append.mp hdescending).2.1).1 other hother
          minScore hminScore

/-- The rank of a game, if it has one, is that of its score. -/
def Legit (game : Game) : Prop :=
  game.coopRank = none ∨ game.gametype.isCoop = true ∧
    game.coopRank = calculateCoopRankForScore game.coopScore

/-- The later row of a game: its rank is as it was, or it has got the one that it lacked. -/
def FilledFrom (game later : Game) : Prop :=
  core later = core game ∧ (later.coopRank = game.coopRank ∨
    isUnranked game = true ∧ later.coopRank = calculateCoopRankForScore game.coopScore)

/-- A game that is saved with its rank. -/
structure SavedRanked (game : Game) : Prop where
  legit : Legit game
  ranked : isUnranked game = false
  pos : 0 < game.pk

structure Follows (games later : Table Game Game.pk) : Prop where
  kept : ∀ game ∈ games.rows, ∃ row ∈ later.rows, FilledFrom game row
  came : ∀ row ∈ later.rows, (∃ game ∈ games.rows, FilledFrom game row) ∨ SavedRanked row

section Rows

variable {game later last : Game} {s t u : Table Game Game.pk}

theorem isUnranked_iff : isUnranked game = true ↔
    game.gametype = .coOp ∧ game.coopRank = none := by
  rw [isUnranked, decide_eq_true_eq]

theorem pk_of_core (h : core later = core game) : later.pk = game.pk := by
  have hpk := congrArg Game.pk h
  exact hpk

theorem gametype_of_core (h : core later = core game) : later.gametype = game.gametype := by
  have hgametype := congrArg Game.gametype h
  exact hgametype

theorem coopScore_of_core (h : core later = core game) : later.coopScore = game.coopScore := by
  have hscore := congrArg Game.coopScore h
  exact hscore

theorem calculateCoopRankForScore_ne_none (score : ℤ) : calculateCoopRankForScore score ≠ none := by
  obtain ⟨rank, hrank, _⟩ := exists_isRankFor score
  rw [hrank]
  exact Option.some_ne_none rank

theorem FilledFrom.refl (game : Game) : FilledFrom game game := ⟨rfl, .inl rfl⟩

theorem FilledFrom.isUnranked (h : FilledFrom game later)
    (hlater : CoopRanks.isUnranked later = true) : CoopRanks.isUnranked game = true := by
  obtain ⟨hcore, hrank | ⟨hunranked, _⟩⟩ := h
  · rw [isUnranked_iff] at hlater ⊢
    rw [← gametype_of_core hcore, ← hrank]
    exact hlater
  · exact hunranked

theorem FilledFrom.trans (h : FilledFrom game later) (h' : FilledFrom later last) :
    FilledFrom game last := by
  obtain ⟨hcore, hrank⟩ := h
  obtain ⟨hcore', hrank' | ⟨hunranked, hrank'⟩⟩ := h'
  · exact ⟨hcore'.trans hcore, hrank'.symm ▸ hrank⟩
  · refine ⟨hcore'.trans hcore, .inr ⟨FilledFrom.isUnranked ⟨hcore, hrank⟩ hunranked, ?_⟩⟩
    rw [hrank', coopScore_of_core hcore]

theorem FilledFrom.legit (h : FilledFrom game later) (hlegit : Legit game) : Legit later := by
  obtain ⟨hcore, hrank | ⟨hunranked, hrank⟩⟩ := h
  · rw [Legit, hrank, gametype_of_core hcore, coopScore_of_core hcore]
    exact hlegit
  · refine .inr ⟨?_, hrank.trans (by rw [coopScore_of_core hcore])⟩
    rw [gametype_of_core hcore, (isUnranked_iff.mp hunranked).1]
    rfl

theorem SavedRanked.filled (h : SavedRanked game) (hfilled : FilledFrom game later) :
    SavedRanked later where
  legit := hfilled.legit h.legit
  ranked := by
    by_contra hunranked
    have hgame := hfilled.isUnranked (by simpa using hunranked)
    rw [h.ranked] at hgame
    cases hgame
  pos := pk_of_core hfilled.1 ▸ h.pos

theorem Follows.refl (t : Table Game Game.pk) : Follows t t :=
  ⟨fun game hgame => ⟨game, hgame, .refl game⟩, fun row hrow => .inl ⟨row, hrow, .refl row⟩⟩

theorem Follows.trans (h : Follows s t) (h' : Follows t u) : Follows s u where
  kept game hgame := by
    obtain ⟨later, hlater, hfilled⟩ := h.kept game hgame
    obtain ⟨last, hlast, hfilled'⟩ := h'.kept later hlater
    exact ⟨last, hlast, hfilled.trans hfilled'⟩
  came row hrow := by
    obtain ⟨later, hlater, hfilled'⟩ | hnew := h'.came row hrow
    · obtain ⟨game, hgame, hfilled⟩ | hnew := h.came later hlater
      · exact .inl ⟨game, hgame, hfilled.trans hfilled'⟩
      · exact .inr (hnew.filled hfilled')
    · exact .inr hnew

/-- No game loses its rank, and none is saved without one. -/
theorem Follows.wants (h : Follows s t) : ∀ row ∈ t.rows, isUnranked row = true →
    ∃ game ∈ s.rows, isUnranked game = true ∧ game.pk = row.pk := by
  intro row hrow hunranked
  obtain ⟨game, hgame, hfilled⟩ | hnew := h.came row hrow
  · exact ⟨game, hgame, hfilled.isUnranked hunranked, (pk_of_core hfilled.1).symm⟩
  · rw [hnew.ranked] at hunranked
    cases hunranked

/-- A row for row change. -/
theorem follows_of_map {f : Game → Game} (hrows : t.rows = s.rows.map f)
    (hf : ∀ game ∈ s.rows, FilledFrom game (f game)) : Follows s t where
  kept game hgame := ⟨f game, hrows ▸ List.mem_map_of_mem hgame, hf game hgame⟩
  came row hrow := by
    rw [hrows] at hrow
    obtain ⟨game, hgame, rfl⟩ := List.mem_map.mp hrow
    exact .inl ⟨game, hgame, hf game hgame⟩

end Rows

section Steps

variable {outside : External} {chunkSize : ℕ} {s : State}

theorem follows_deliver (outside : External) (delivery : Delivery) (db : Database) :
    Follows db.games (attempt outside delivery db).2.db.games := by
  obtain ⟨game, _, hinserted, hsaved⟩ | ⟨_, hsame⟩ := attempt_cases outside delivery db
  · have hrows : (attempt outside delivery db).2.db.games.rows = db.games.rows ++ [game] :=
      hsaved.games
    have hnew : SavedRanked game := by
      obtain ⟨server, dateFinished, map, hrow⟩ := hinserted.row
      have hgametype := congrArg Game.gametype hrow
      have hscore := congrArg Game.coopScore hrow
      have hrank := congrArg Game.coopRank hrow
      simp only [newGame] at hgametype hscore hrank
      refine ⟨?_, ?_, ?_⟩
      · obtain hcoop | hcoop := Decidable.em (delivery.data.gametype.isCoop = true)
        · rw [if_pos hcoop] at hscore hrank
          exact .inr ⟨hgametype ▸ hcoop, hrank.trans (by rw [hscore])⟩
        · rw [if_neg hcoop] at hrank
          exact .inl hrank
      · by_contra hunranked
        obtain ⟨hcoop, hnone⟩ := isUnranked_iff.mp (by simpa using hunranked)
        rw [hgametype] at hcoop
        rw [hrank, hcoop] at hnone
        exact calculateCoopRankForScore_ne_none _ hnone
      · rw [hinserted.pk]
        exact Nat.succ_pos _
    constructor
    · exact fun old hold => ⟨old, hrows ▸ List.mem_append_left _ hold, .refl old⟩
    · intro row hrow
      rw [hrows] at hrow
      obtain hold | hrow := List.mem_append.mp hrow
      · exact .inl ⟨row, hold, .refl row⟩
      · exact .inr (List.mem_singleton.mp hrow ▸ hnew)
  · rw [hsame]
    exact .refl _

theorem follows_elsewhere {games later : Table Game Game.pk}
    (h : later.rows.map (fun game => (core game, game.coopRank)) =
      games.rows.map fun game => (core game, game.coopRank)) : Follows games later := by
  have hfilled : ∀ {game row : Game}, (core row, row.coopRank) = (core game, game.coopRank) →
      FilledFrom game row := by
    intro game row hsame
    obtain ⟨hcore, hrank⟩ := Prod.mk.inj hsame
    exact ⟨hcore, .inl hrank⟩
  constructor
  · intro game hgame
    have hmem : (core game, game.coopRank) ∈
        later.rows.map fun game => (core game, game.coopRank) := by
      rw [h]
      exact List.mem_map_of_mem (f := fun game : Game => (core game, game.coopRank)) hgame
    obtain ⟨row, hrow, hsame⟩ := List.mem_map.mp hmem
    exact ⟨row, hrow, hfilled hsame⟩
  · intro row hrow
    have hmem : (core row, row.coopRank) ∈
        games.rows.map fun game => (core game, game.coopRank) := by
      rw [← h]
      exact List.mem_map_of_mem (f := fun game : Game => (core game, game.coopRank)) hrow
    obtain ⟨game, hgame, hsame⟩ := List.mem_map.mp hmem
    exact .inl ⟨game, hgame, hfilled hsame.symm⟩

/-- The games that a run has loaded are stored, and they are those of the chunk without a rank. -/
structure Loaded (games : Table Game Game.pk) (gameIds : List GameId) (gamesToUpdate : List Game) :
    Prop where
  stored : ∀ game ∈ gamesToUpdate, game.gametype = .coOp ∧
    game.coopRank = calculateCoopRankForScore game.coopScore ∧
      ∃ row ∈ games.rows, core row = core game
  all : ∀ row ∈ games.rows, isUnranked row = true → row.pk ∈ gameIds →
    row.pk ∈ gamesToUpdate.map Game.pk

theorem Loaded.follows {games later : Table Game Game.pk} {gameIds : List GameId}
    {gamesToUpdate : List Game} (h : Loaded games gameIds gamesToUpdate)
    (hfollows : Follows games later) : Loaded later gameIds gamesToUpdate where
  stored game hgame := by
    obtain ⟨hgametype, hrank, row, hrow, hcore⟩ := h.stored game hgame
    obtain ⟨last, hlast, hfilled⟩ := hfollows.kept row hrow
    exact ⟨hgametype, hrank, last, hlast, hfilled.1.trans hcore⟩
  all row hrow hunranked hmem := by
    obtain ⟨game, hgame, hunranked, hpk⟩ := hfollows.wants row hrow hunranked
    exact hpk ▸ h.all game hgame hunranked (hpk.symm ▸ hmem)

theorem loaded_loadGames (gameIds : List GameId) (db : Database) :
    Loaded db.games gameIds (loadGames gameIds db) where
  stored game hgame := by
    obtain ⟨row, hrow, rfl⟩ := List.mem_map.mp hgame
    obtain ⟨hrow, hcond⟩ := List.mem_filter.mp hrow
    rw [decide_eq_true_eq] at hcond
    exact ⟨(isUnranked_iff.mp hcond.2).1, rfl, row, hrow, rfl⟩
  all row hrow hunranked hmem := by
    refine List.mem_map.mpr ⟨withCoopRank row, List.mem_map_of_mem (List.mem_filter.mpr ?_), rfl⟩
    exact ⟨hrow, decide_eq_true ⟨hmem, hunranked⟩⟩

/-- The row of a stored game after the update. -/
def updatedRow (gamesToUpdate : List Game) (row : Game) : Game :=
  match gamesToUpdate.find? fun game => game.pk = row.pk with
  | some game => { row with coopRank := game.coopRank }
  | none => row

theorem rows_bulkUpdate (gamesToUpdate : List Game) (db : Database) :
    (bulkUpdate gamesToUpdate db).games.rows = db.games.rows.map (updatedRow gamesToUpdate) := by
  rw [bulkUpdate, Table.rows_update]
  refine List.map_congr_left fun row _ => ?_
  rw [updatedRow]
  cases gamesToUpdate.find? fun game => game.pk = row.pk with
  | none => rfl
  | some game => rfl

theorem follows_bulkUpdate {db : Database} {gameIds : List GameId} {gamesToUpdate : List Game}
    (hloaded : Loaded db.games gameIds gamesToUpdate)
    (hlegit : ∀ game ∈ db.games.rows, Legit game) :
    Follows db.games (bulkUpdate gamesToUpdate db).games := by
  refine follows_of_map (rows_bulkUpdate gamesToUpdate db) fun row hrow => ?_
  rw [updatedRow]
  cases hfind : gamesToUpdate.find? fun game => game.pk = row.pk with
  | none => exact .refl row
  | some game =>
    obtain ⟨hgametype, hrank, other, hother, hcore⟩ :=
      hloaded.stored game (List.mem_of_find?_eq_some hfind)
    have hpk : game.pk = row.pk := by simpa using List.find?_some hfind
    obtain rfl : other = row :=
      db.games.eq_of_key_eq hother hrow ((pk_of_core hcore).trans hpk)
    refine ⟨rfl, ?_⟩
    obtain hnone | ⟨_, hranked⟩ := hlegit other hrow
    · refine .inr ⟨isUnranked_iff.mpr ⟨(gametype_of_core hcore).trans hgametype, hnone⟩, ?_⟩
      exact hrank.trans (by rw [coopScore_of_core hcore])
    · -- another run has been faster
      exact .inl (hrank.trans (by rw [hranked, coopScore_of_core hcore]))

theorem not_mem_of_bulkUpdate {db : Database} {gameIds : List GameId} {gamesToUpdate : List Game}
    (hloaded : Loaded db.games gameIds gamesToUpdate) :
    ∀ row ∈ (bulkUpdate gamesToUpdate db).games.rows, isUnranked row = true →
      row.pk ∉ gameIds := by
  intro row hrow hunranked hmem
  rw [rows_bulkUpdate] at hrow
  obtain ⟨old, hold, rfl⟩ := List.mem_map.mp hrow
  rw [updatedRow] at hunranked hmem
  cases hfind : gamesToUpdate.find? fun game => game.pk = old.pk with
  | none =>
    simp only [hfind] at hunranked hmem
    obtain ⟨game, hgame, hpk⟩ := List.mem_map.mp (hloaded.all old hold hunranked hmem)
    have hnot := List.find?_eq_none.mp hfind game hgame
    simp only [hpk, decide_true, not_true] at hnot
  | some game =>
    simp only [hfind] at hunranked
    have hrank := (hloaded.stored game (List.mem_of_find?_eq_some hfind)).2.1
    exact calculateCoopRankForScore_ne_none _ (hrank ▸ (isUnranked_iff.mp hunranked).2)

end Steps

/-- What a run of the command knows about the games. -/
structure Fill.Sound (chunkSize : ℕ) (games : Table Game Game.pk) (fill : Fill) : Prop where
  covers : fill.cursor.Covers chunkSize isUnranked games
  loaded : ∀ gamesToUpdate ∈ fill.gamesToUpdate, ∃ gameIds, fill.cursor = .page gameIds ∧
    Loaded games gameIds gamesToUpdate

structure Invariant (chunkSize : ℕ) (s : State) : Prop where
  legit : ∀ game ∈ s.db.games.rows, Legit game
  pos : ∀ game ∈ s.db.games.rows, 0 < game.pk
  sound : ∀ worker, ∀ fill ∈ s.fills worker, fill.Sound chunkSize s.db.games

section Runs

variable {outside : External} {chunkSize : ℕ} {s t : State} {e : Event} {events : List Event}

theorem Fill.Sound.follows {games later : Table Game Game.pk} {fill : Fill}
    (h : fill.Sound chunkSize games) (hfollows : Follows games later) :
    fill.Sound chunkSize later where
  covers := h.covers.mono hfollows.wants
  loaded gamesToUpdate hload := by
    obtain ⟨gameIds, hcursor, hloaded⟩ := h.loaded gamesToUpdate hload
    exact ⟨gameIds, hcursor, hloaded.follows hfollows⟩

theorem Invariant.follows (h : Invariant chunkSize s) {db : Database}
    (hfollows : Follows s.db.games db.games) : Invariant chunkSize { s with db } where
  legit row hrow := by
    obtain ⟨game, hgame, hfilled⟩ | hnew := hfollows.came row hrow
    · exact hfilled.legit (h.legit game hgame)
    · exact hnew.legit
  pos row hrow := by
    obtain ⟨game, hgame, hfilled⟩ | hnew := hfollows.came row hrow
    · exact pk_of_core hfilled.1 ▸ h.pos game hgame
    · exact hnew.pos
  sound worker fill hfill := (h.sound worker fill hfill).follows hfollows

theorem Invariant.set (h : Invariant chunkSize s) {worker : ℕ} {fill : Option Fill}
    (hfill : ∀ f ∈ fill, f.Sound chunkSize s.db.games) :
    Invariant chunkSize (s.set worker fill) where
  legit := h.legit
  pos := h.pos
  sound other f hf := by
    obtain rfl | hne := eq_or_ne other worker
    · simp only [State.set, if_true] at hf
      exact hfill f hf
    · simp only [State.set, if_neg hne] at hf
      exact h.sound other f hf

theorem sound_of_cursor {games : Table Game Game.pk} {cursor : Cursor}
    (h : cursor.Covers chunkSize isUnranked games) :
    Fill.Sound chunkSize games ⟨cursor, none⟩ := by
  refine ⟨h, ?_⟩
  rintro _ ⟨⟩

theorem covers_nextChunk (hsize : 1 ≤ chunkSize) {lastPk : GameId} {db : Database}
    (h : Cursor.Covers chunkSize isUnranked db.games (.after lastPk)) :
    (nextChunk chunkSize lastPk db).Covers chunkSize isUnranked db.games := by
  have hread := Cursor.covers_read h
  rw [nextChunk]
  split
  · rename_i hempty
    rw [hempty] at hread
    intro row hrow
    by_contra hunranked
    obtain hmem | ⟨hle, _⟩ := hread row hrow (by simpa using hunranked)
    · cases hmem
    · rw [List.length_nil] at hle
      omega
  · exact hread

/-- What a step does to the games; only an update of the command gives a rank. -/
theorem follows_step (h : Invariant chunkSize s) (he : (system outside chunkSize).enabled s e) :
    Follows s.db.games ((system outside chunkSize).next s e).db.games := by
  cases e with
  | start worker => exact .refl _
  | nextChunk worker =>
    obtain ⟨lastPk, hfill⟩ := he
    simp only [system, hfill]
    exact .refl _
  | loadGames worker =>
    obtain ⟨gameIds, hfill⟩ := he
    simp only [system, hfill]
    exact .refl _
  | bulkUpdate worker =>
    obtain ⟨gameIds, games, hfill⟩ := he
    obtain ⟨gameIds', hcursor, hloaded⟩ := (h.sound worker _ hfill).loaded games rfl
    simp only [system, hfill]
    exact follows_bulkUpdate hloaded h.legit
  | cutOff worker => exact .refl _
  | deliver delivery => exact follows_deliver outside delivery s.db
  | elsewhere change => exact follows_elsewhere he

theorem invariant_step (hsize : 1 ≤ chunkSize) (h : Invariant chunkSize s)
    (he : (system outside chunkSize).enabled s e) :
    Invariant chunkSize ((system outside chunkSize).next s e) := by
  have hfollows := follows_step h he
  cases e with
  | start worker =>
    apply h.set
    rintro _ ⟨⟩
    exact sound_of_cursor fun game hgame _ => h.pos game hgame
  | nextChunk worker =>
    obtain ⟨lastPk, hfill⟩ := he
    simp only [system, hfill]
    apply h.set
    rintro _ ⟨⟩
    exact sound_of_cursor (covers_nextChunk hsize (h.sound worker _ hfill).covers)
  | loadGames worker =>
    obtain ⟨gameIds, hfill⟩ := he
    simp only [system, hfill]
    apply h.set
    rintro _ ⟨⟩
    refine ⟨(h.sound worker _ hfill).covers, ?_⟩
    rintro _ ⟨⟩
    exact ⟨gameIds, rfl, loaded_loadGames gameIds s.db⟩
  | bulkUpdate worker =>
    obtain ⟨gameIds, games, hfill⟩ := he
    obtain ⟨_, ⟨⟩, hloaded⟩ := (h.sound worker _ hfill).loaded games rfl
    simp only [system, hfill] at hfollows ⊢
    have hcovers := (h.sound worker _ hfill).covers.mono hfollows.wants
    apply (h.follows hfollows).set
    rintro _ ⟨⟩
    exact sound_of_cursor (Cursor.covers_advance hsize hcovers (not_mem_of_bulkUpdate hloaded))
  | cutOff worker =>
    apply h.set
    rintro _ ⟨⟩
  | deliver delivery => exact h.follows hfollows
  | elsewhere change => exact h.follows hfollows

theorem invariant_of_run (hsize : 1 ≤ chunkSize)
    (hrun : Run (system outside chunkSize) s events t) (h : Invariant chunkSize s) :
    Invariant chunkSize t :=
  hrun.invariant (fun _ _ hs he => invariant_step hsize hs he) h

theorem follows_of_run (hsize : 1 ≤ chunkSize)
    (hrun : Run (system outside chunkSize) s events t) (h : Invariant chunkSize s) :
    Follows s.db.games t.db.games := by
  induction hrun with
  | nil => exact .refl _
  | cons he _ ih => exact (follows_step h he).trans (ih (invariant_step hsize h he))

/-- The worker whose loop takes the step. -/
def Event.worker? : Event → Option ℕ
  | .nextChunk worker | .loadGames worker | .bulkUpdate worker => some worker
  | .start _ | .cutOff _ | .deliver _ | .elsewhere _ => none

/-- The worker comes to the end of its loop when it is left alone. -/
def Finishes (outside : External) (chunkSize worker : ℕ) (s : State) : Prop :=
  ∃ events t, (∀ e ∈ events, Event.worker? e = some worker) ∧
    Run (system outside chunkSize) s events t ∧ ∃ fill ∈ t.fills worker, fill.cursor = .finished

theorem finishes_of_next {worker : ℕ} (hworker : e.worker? = some worker)
    (he : (system outside chunkSize).enabled s e)
    (h : Finishes outside chunkSize worker ((system outside chunkSize).next s e)) :
    Finishes outside chunkSize worker s := by
  obtain ⟨events, t, hevents, hrun, hfinished⟩ := h
  exact ⟨e :: events, t, List.forall_mem_cons.mpr ⟨hworker, hevents⟩, .cons he hrun, hfinished⟩

theorem finishes_of_finished {worker : ℕ} {fill : Fill} (hfill : s.fills worker = some fill)
    (h : fill.cursor = .finished) : Finishes outside chunkSize worker s :=
  ⟨[], s, List.forall_mem_nil _, .nil s, fill, hfill, h⟩

theorem fills_set_self {worker : ℕ} {fill : Option Fill} :
    (s.set worker fill).fills worker = fill :=
  if_pos rfl

/-- The worker is at the end of a chunk, and the games are as the chunk has left them. -/
structure ChunkDone (chunkSize worker : ℕ) (gameIds : List GameId) (s t : State) : Prop where
  invariant : Invariant chunkSize t
  follows : Follows s.db.games t.db.games
  fill : t.fills worker = some ⟨Cursor.advance chunkSize gameIds, none⟩

theorem finishes_of_loaded (hsize : 1 ≤ chunkSize) {worker : ℕ} (h : Invariant chunkSize s)
    {gameIds : List GameId} {games : List Game}
    (hfill : s.fills worker = some ⟨.page gameIds, some games⟩)
    (hrest : ∀ t, ChunkDone chunkSize worker gameIds s t →
      Finishes outside chunkSize worker t) : Finishes outside chunkSize worker s := by
  have he : (system outside chunkSize).enabled s (.bulkUpdate worker) := ⟨gameIds, games, hfill⟩
  refine finishes_of_next rfl he (hrest _ ⟨invariant_step hsize h he, follows_step h he, ?_⟩)
  simp only [system, hfill]
  exact fills_set_self

theorem finishes_of_page (hsize : 1 ≤ chunkSize) {worker : ℕ} (h : Invariant chunkSize s)
    {gameIds : List GameId} (hfill : s.fills worker = some ⟨.page gameIds, none⟩)
    (hrest : ∀ t, ChunkDone chunkSize worker gameIds s t →
      Finishes outside chunkSize worker t) : Finishes outside chunkSize worker s := by
  have he : (system outside chunkSize).enabled s (.loadGames worker) := ⟨gameIds, hfill⟩
  have h₁ := invariant_step hsize h he
  apply finishes_of_next rfl he
  simp only [system, hfill] at h₁ ⊢
  exact finishes_of_loaded hsize h₁ fills_set_self fun t hdone =>
    hrest t ⟨hdone.invariant, hdone.follows, hdone.fill⟩

/-- The induction is on the games that are left after the last chunk. -/
theorem finishes_of_after (hsize : 1 ≤ chunkSize) {worker : ℕ} (enough : ℕ)
    (h : Invariant chunkSize s) {lastPk : GameId}
    (hfill : s.fills worker = some ⟨.after lastPk, none⟩)
    (henough : (s.db.games.after isUnranked lastPk).length < enough) :
    Finishes outside chunkSize worker s := by
  induction enough generalizing s lastPk with
  | zero => omega
  | succ enough ih =>
    have he : (system outside chunkSize).enabled s (.nextChunk worker) := ⟨lastPk, hfill⟩
    have h₁ := invariant_step hsize h he
    apply finishes_of_next rfl he
    simp only [system, hfill] at h₁ ⊢
    generalize hchunk : nextChunk chunkSize lastPk s.db = cursor at h₁ ⊢
    rw [nextChunk] at hchunk
    split at hchunk
    · rw [← hchunk]
      exact finishes_of_finished fills_set_self rfl
    · rw [← hchunk, Cursor.read] at h₁ ⊢
      refine finishes_of_page hsize h₁ fills_set_self fun t hdone => ?_
      have hfill' := hdone.fill
      generalize hnext : Cursor.advance chunkSize
        (((s.db.games.after isUnranked lastPk).take chunkSize).map Game.pk) = next at hfill'
      cases next with
      | finished => exact finishes_of_finished hfill' rfl
      | after nextPk =>
        have hfewer := Cursor.length_after_lt hnext hdone.follows.wants
        exact ih hdone.invariant hfill' (by omega)
      | page gameIds => exact absurd hnext (Cursor.advance_ne_page _ _ _)

theorem finishes_of_fill (hsize : 1 ≤ chunkSize) (h : Invariant chunkSize s) {worker : ℕ}
    {fill : Fill} (hfill : s.fills worker = some fill) :
    Finishes outside chunkSize worker s := by
  have hdone : ∀ gameIds t, ChunkDone chunkSize worker gameIds s t →
      Finishes outside chunkSize worker t := by
    intro gameIds t hdone
    have hfill' := hdone.fill
    cases hnext : Cursor.advance chunkSize gameIds with
    | finished => exact finishes_of_finished hfill' hnext
    | after lastPk =>
      rw [hnext] at hfill'
      exact finishes_of_after hsize _ hdone.invariant hfill' (Nat.lt_succ_self _)
    | page gameIds' => exact absurd hnext (Cursor.advance_ne_page _ _ _)
  obtain ⟨cursor, gamesToUpdate⟩ := fill
  cases gamesToUpdate with
  | some games =>
    obtain ⟨gameIds, hcursor, _⟩ := (h.sound worker _ hfill).loaded games rfl
    obtain rfl : cursor = .page gameIds := hcursor
    exact finishes_of_loaded hsize h hfill (hdone gameIds)
  | none =>
    cases cursor with
    | after lastPk => exact finishes_of_after hsize _ h hfill (Nat.lt_succ_self _)
    | page gameIds => exact finishes_of_page hsize h hfill (hdone gameIds)
    | finished => exact finishes_of_finished hfill rfl

/-- What the command has done by `t`, however often it was started, cut off or run twice at once:
it has given only ranks that were missing, each that of the score, once it has come to its end no
game of the mode lacks one, and it can always be brought to its end. -/
structure Fills (outside : External) (chunkSize : ℕ) (start t : State) : Prop where
  games : ∀ game ∈ start.db.games.rows, ∃ row ∈ t.db.games.rows, FilledFrom game row
  ranks : ∀ row ∈ t.db.games.rows, ∀ rank ∈ row.coopRank,
    row.gametype.isCoop = true ∧ IsRankFor row.coopScore rank
  finished : ∀ worker, ∀ fill ∈ t.fills worker, fill.cursor = .finished →
    ∀ row ∈ t.db.games.rows, row.gametype = .coOp →
      ∃ rank, row.coopRank = some rank ∧ IsRankFor row.coopScore rank
  finishes : ∀ worker, t.fills worker ≠ none → Finishes outside chunkSize worker t

theorem Legit.rank {row : Game} (h : Legit row) {rank : CoopRank}
    (hrank : row.coopRank = some rank) :
    row.gametype.isCoop = true ∧ IsRankFor row.coopScore rank := by
  obtain hnone | ⟨hcoop, hsome⟩ := h
  · rw [hrank] at hnone
    cases hnone
  · obtain ⟨rank', hrank', hfor⟩ := exists_isRankFor row.coopScore
    rw [hrank, hrank'] at hsome
    cases hsome
    exact ⟨hcoop, hfor⟩

theorem fills_of_run (hsize : 1 ≤ chunkSize) (hfills : ∀ worker, s.fills worker = none)
    (hpos : ∀ game ∈ s.db.games.rows, 0 < game.pk) (hlegit : ∀ game ∈ s.db.games.rows, Legit game)
    (hrun : Run (system outside chunkSize) s events t) : Fills outside chunkSize s t := by
  have hs : Invariant chunkSize s := by
    refine ⟨hlegit, hpos, fun worker fill hfill => ?_⟩
    rw [hfills worker] at hfill
    cases hfill
  have ht : Invariant chunkSize t := invariant_of_run hsize hrun hs
  constructor
  · exact (follows_of_run hsize hrun hs).kept
  · exact fun row hrow rank hrank => (ht.legit row hrow).rank hrank
  · intro worker fill hfill hcursor row hrow hcoop
    have hcovers := (ht.sound worker fill hfill).covers
    rw [hcursor] at hcovers
    have hranked : row.coopRank ≠ none := by
      intro hnone
      have hunranked := isUnranked_iff.mpr ⟨hcoop, hnone⟩
      rw [hcovers row hrow] at hunranked
      cases hunranked
    obtain ⟨rank, hrank⟩ := Option.ne_none_iff_exists'.mp hranked
    exact ⟨rank, hrank, ((ht.legit row hrow).rank hrank).2⟩
  · intro worker hfill
    obtain ⟨fill, hfill⟩ := Option.ne_none_iff_exists'.mp hfill
    exact finishes_of_fill hsize ht hfill

end Runs

section Example

def legacyGame : Game := {
  pk := 1, server := 1, tag := none, dateFinished := 0, gametype := .coOp, gametypeLegacy := 3,
  map := 1, mapname := 0, outcome := none, outcomeLegacy := 0, time := 600, playerNum := 5,
  scoreSwat := 0, scoreSus := 0, victSwat := 0, victSus := 0, rdBombsDefused := 0,
  rdBombsTotal := 0, coopScore := 97, coopRank := none }

def legacyGames : State where
  db := { Database.empty with games := ⟨[legacyGame], by decide⟩ }
  fills _ := none

/-- One run is cut off when another one has updated the chunk that both have loaded. -/
def overlappingFills : List Event :=
  [.start 1, .nextChunk 1, .loadGames 1, .start 2, .nextChunk 2, .loadGames 2, .bulkUpdate 2,
    .cutOff 1, .nextChunk 2]

theorem fills_overlappingFills :
    ∃ t, Run (system plainOutside 1) legacyGames overlappingFills t ∧
      Fills plainOutside 1 legacyGames t ∧
      t.db.games.rows.map Game.coopRank = [some .inspector] ∧
      t.fills 2 = some ⟨.finished, none⟩ := by
  have hrun : Run (system plainOutside 1) legacyGames overlappingFills _ :=
    .cons trivial (.cons ⟨0, rfl⟩ (.cons ⟨_, rfl⟩ (.cons trivial (.cons ⟨0, rfl⟩ (.cons ⟨_, rfl⟩
      (.cons ⟨_, _, rfl⟩ (.cons trivial (.cons ⟨_, rfl⟩ (.nil _)))))))))
  refine ⟨_, hrun, fills_of_run (by decide) (fun _ => rfl) (by decide) ?_ hrun, rfl, rfl⟩
  intro game hgame
  left
  revert game
  decide

end Example

end CoopRanks

end Swat4Stats
