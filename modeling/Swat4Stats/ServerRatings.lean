import Swat4Stats.Library.GroupBy
import Swat4Stats.Library.OrderedDict
import Swat4Stats.Library.RowNumber
import Swat4Stats.RankQueries
import Mathlib.Data.Char
import Mathlib.Data.List.Lex
import Mathlib.Data.List.Sort
import Mathlib.Data.Prod.Lex

/-!
# Ratings of servers

`update_ratings` numbers the servers with a game in the last ninety days: by the number of such
games, then by hostname, then by primary key.
-/

namespace Swat4Stats

set_option autoImplicit false

namespace ServerManager

open Tx

/-- `TRACKER_SERVER_RATINGS_FOR_PERIOD`, ninety days. -/
def trackerServerRatingsForPeriod : ℕ := 90 * 24 * 60 * 60 * 1000000

def finishedSince (now : Time) : Time := now - trackerServerRatingsForPeriod

def recentGames (now : Time) (db : Database) : List Game :=
  db.games.rows.filter fun game => finishedSince now ≤ game.dateFinished

def gameCountPerServerId (now : Time) (db : Database) : OrderedDict ServerId ℕ :=
  (GroupBy.keys Game.server (recentGames now db)).map fun server =>
    (server, (GroupBy.group Game.server (recentGames now db) server).length)

/-- The tuple that `sorted` compares. A missing hostname counts as the empty one. -/
def ratingKey (gameCounts : OrderedDict ServerId ℕ) (server : Server) : ℤ ×ₗ Text ×ₗ ServerId :=
  -- the servers are those of the keys, so the count is always there
  toLex (-((OrderedDict.get? gameCounts server.pk).getD 0 : ℤ),
    toLex (server.hostname.getD [], server.pk))

def serversSortedByRating (now : Time) (db : Database) : List Server :=
  let gameCounts := gameCountPerServerId now db
  let serversWithRating := db.servers.rows.filter fun s => s.pk ∈ OrderedDict.keys gameCounts
  serversWithRating.insertionSort fun x y => ratingKey gameCounts x ≤ ratingKey gameCounts y

def _getServersWithRating (now : Time) (db : Database) : OrderedDict ServerId ℕ :=
  ((serversSortedByRating now db).zipIdx 1).map fun entry => (entry.1.pk, entry.2)

/-- A statement of `bulk_update`: the value of each row is looked up by its primary key. -/
def updateBatch (batch : OrderedDict ServerId (Option ℕ)) : DbTx Unit :=
  write fun db => { db with
    servers := db.servers.update (fun s => s.pk ∈ OrderedDict.keys batch)
      (fun s => { s with rating := (OrderedDict.get? batch s.pk).join }) fun _ => rfl }

/-- The clock is read twice, for the period and for the time of the update. `bulk_update` refuses
an empty batch, so the size is positive. -/
def updateRatings (now updatedAt : Time) (chunkSize : ℕ) : DbTx Unit := do
  let serversWithRating ← read (_getServersWithRating now)
  let serversToUpdateQs ← read fun db => db.servers.rows
  let ratings := serversToUpdateQs.map fun server =>
    (server.pk, OrderedDict.get? serversWithRating server.pk)
  atomic do
    forEach (StatsManager.iterateList ratings chunkSize) updateBatch
    write fun db => { db with
      servers := db.servers.update (fun _ => true)
        (fun s => { s with ratingUpdatedAt := some updatedAt }) fun _ => rfl }

def withRatings (ratings : OrderedDict ServerId (Option ℕ)) (db : Database) : Database :=
  { db with
    servers := db.servers.update (fun _ => true)
      (fun s => { s with rating := (OrderedDict.get? ratings s.pk).getD s.rating }) fun _ => rfl }

theorem run_updateBatch (batch : OrderedDict ServerId (Option ℕ)) (db : Database) :
    (updateBatch batch).run db = (.ok ⟨⟩, withRatings batch db) := by
  rw [updateBatch, run_write, withRatings]
  congr 2
  apply Table.ext
  rw [Table.rows_update, Table.rows_update]
  refine List.map_congr_left fun server _ => ?_
  simp only [decide_eq_true_eq, if_true]
  split
  · rename_i hkey
    obtain ⟨rating, hrating⟩ := Option.ne_none_iff_exists'.mp
      (fun hnone => OrderedDict.get?_eq_none_iff.mp hnone hkey)
    rw [hrating]
    rfl
  · rename_i hkey
    rw [OrderedDict.get?_eq_none_iff.mpr hkey]
    rfl

theorem withRatings_nil (db : Database) : withRatings [] db = db := by
  have hservers : db.servers.update (fun _ => true)
      (fun s => { s with rating := (OrderedDict.get? [] s.pk).getD s.rating }) (fun _ => rfl) =
        db.servers := Table.ext (List.map_id' _)
  rw [withRatings, hservers]

theorem withRatings_append {first rest : OrderedDict ServerId (Option ℕ)}
    (h : (OrderedDict.keys (first ++ rest)).Nodup) (db : Database) :
    withRatings rest (withRatings first db) = withRatings (first ++ rest) db := by
  rw [OrderedDict.keys, List.map_append, List.nodup_append] at h
  simp only [withRatings]
  congr 1
  apply Table.ext
  rw [Table.rows_update_update fun _ _ => rfl, Table.rows_update]
  refine List.map_congr_left fun server _ => ?_
  simp only [if_true, OrderedDict.get?_append]
  cases hfirst : OrderedDict.get? first server.pk with
  | none => rfl
  | some rating =>
    have hkey : server.pk ∈ OrderedDict.keys first := by
      by_contra hnot
      rw [OrderedDict.get?_eq_none_iff.mpr hnot] at hfirst
      cases hfirst
    have hrest : OrderedDict.get? rest server.pk = none :=
      OrderedDict.get?_eq_none_iff.mpr fun hmem => h.2.2 _ hkey _ hmem rfl
    rw [hrest]
    rfl

theorem run_forEach_updateBatch {batches : List (OrderedDict ServerId (Option ℕ))}
    (h : (OrderedDict.keys batches.flatten).Nodup) (db : Database) :
    (forEach batches updateBatch).run db = (.ok ⟨⟩, withRatings batches.flatten db) := by
  induction batches generalizing db with
  | nil =>
    rw [run_forEach_nil, List.flatten_nil, withRatings_nil]
  | cons batch batches ih =>
    have hrest : (OrderedDict.keys batches.flatten).Nodup := by
      rw [OrderedDict.keys, List.flatten_cons, List.map_append] at h
      exact (List.nodup_append.mp h).2.1
    rw [run_forEach_cons, run_updateBatch]
    simp only [ih hrest]
    rw [withRatings_append h, List.flatten_cons]

def rated (now updatedAt : Time) (db : Database) (server : Server) : Server :=
  { server with
    rating := OrderedDict.get? (_getServersWithRating now db) server.pk
    ratingUpdatedAt := some updatedAt }

def withNewRatings (now updatedAt : Time) (db : Database) : Database :=
  { db with servers := db.servers.update (fun _ => true) (rated now updatedAt db) fun _ => rfl }

theorem run_updateRatings (now updatedAt : Time) {chunkSize : ℕ} (hchunk : 0 < chunkSize)
    (db : Database) :
    (updateRatings now updatedAt chunkSize).run db = (.ok ⟨⟩, withNewRatings now updatedAt db) := by
  have hkeys : (OrderedDict.keys (db.servers.rows.map fun server =>
      (server.pk, OrderedDict.get? (_getServersWithRating now db) server.pk))).Nodup := by
    rw [OrderedDict.keys, List.map_map]
    exact db.servers.nodup
  have hflatten := StatsManager.flatten_iterateList (db.servers.rows.map fun server =>
    (server.pk, OrderedDict.get? (_getServersWithRating now db) server.pk)) hchunk
  simp only [updateRatings, run_bind, run_read, run_atomic]
  rw [run_forEach_updateBatch (hflatten.symm ▸ hkeys), hflatten]
  simp only [run_write, withRatings, withNewRatings]
  congr 2
  apply Table.ext
  refine (Table.rows_update_update fun _ _ => rfl).trans (List.map_congr_left ?_)
  intro server hserver
  have hget : OrderedDict.get? (db.servers.rows.map fun server =>
      (server.pk, OrderedDict.get? (_getServersWithRating now db) server.pk)) server.pk =
        some (OrderedDict.get? (_getServersWithRating now db) server.pk) :=
    OrderedDict.get?_of_mem hkeys (List.mem_map_of_mem (f := fun server : Server =>
      (server.pk, OrderedDict.get? (_getServersWithRating now db) server.pk)) hserver)
  simp only [if_true, hget]
  rfl

def gamesInPeriod (now : Time) (db : Database) (server : Server) : ℕ :=
  db.games.rows.countP fun game =>
    finishedSince now ≤ game.dateFinished ∧ game.server = server.pk

def isActive (now : Time) (db : Database) (server : Server) : Bool :=
  0 < gamesInPeriod now db server

def hasHostname (server : Server) : Bool := server.hostname.getD [] ≠ []

def activeServers (now : Time) (db : Database) : List Server :=
  db.servers.rows.filter (isActive now db)

variable {now updatedAt : Time} {db : Database}

theorem length_group_recentGames (server : Server) :
    (GroupBy.group Game.server (recentGames now db) server.pk).length =
      gamesInPeriod now db server := by
  rw [GroupBy.group, recentGames, List.filter_filter, ← List.countP_eq_length_filter,
    gamesInPeriod]
  apply List.countP_congr
  intro game _
  simp [and_comm]

theorem mem_keys_gameCounts (server : Server) :
    server.pk ∈ OrderedDict.keys (gameCountPerServerId now db) ↔ isActive now db server = true := by
  have hkeys : OrderedDict.keys (gameCountPerServerId now db) =
      GroupBy.keys Game.server (recentGames now db) := by
    simp [OrderedDict.keys, gameCountPerServerId, Function.comp_def]
  rw [hkeys, isActive, decide_eq_true_eq, ← length_group_recentGames,
    List.length_pos_iff_exists_mem, GroupBy.keys, List.mem_dedup, List.mem_map]
  simp only [GroupBy.mem_group]

theorem get?_gameCounts {server : Server} (h : isActive now db server = true) :
    OrderedDict.get? (gameCountPerServerId now db) server.pk =
      some (gamesInPeriod now db server) := by
  have hkeys : OrderedDict.keys (gameCountPerServerId now db) =
      GroupBy.keys Game.server (recentGames now db) := by
    simp [OrderedDict.keys, gameCountPerServerId, Function.comp_def]
  apply OrderedDict.get?_of_mem
  · rw [hkeys]
    exact GroupBy.nodup_keys ..
  · rw [← length_group_recentGames]
    exact List.mem_map_of_mem (f := fun server =>
      (server, (GroupBy.group Game.server (recentGames now db) server).length))
      (hkeys ▸ (mem_keys_gameCounts server).mpr h)

/-- The order of `sorted`. -/
def sortsBefore (now : Time) (db : Database) (x y : Server) : Bool :=
  ratingKey (gameCountPerServerId now db) x < ratingKey (gameCountPerServerId now db) y

theorem sortsBefore_iff {x y : Server} (hx : isActive now db x = true)
    (hy : isActive now db y = true) :
    sortsBefore now db x y = true ↔
      gamesInPeriod now db y < gamesInPeriod now db x ∨
        gamesInPeriod now db y = gamesInPeriod now db x ∧
          (x.hostname.getD [] < y.hostname.getD [] ∨
            x.hostname.getD [] = y.hostname.getD [] ∧ x.pk < y.pk) := by
  rw [sortsBefore, decide_eq_true_eq, ratingKey, ratingKey, get?_gameCounts hx, get?_gameCounts hy,
    Prod.Lex.toLex_lt_toLex, Prod.Lex.toLex_lt_toLex]
  simp only [Option.getD_some]
  constructor
  · rintro (hlt | ⟨heq, hrest⟩)
    · left
      omega
    · right
      exact ⟨by omega, hrest⟩
  · rintro (hlt | ⟨heq, hrest⟩)
    · left
      omega
    · right
      exact ⟨by omega, hrest⟩

theorem ordersRows_sortsBefore (now : Time) (db : Database) :
    OrdersRows (sortsBefore now db) (activeServers now db) where
  irrefl x _ := decide_eq_false (lt_irrefl _)
  trans x _ y _ z _ hxy hyz := by
    rw [sortsBefore, decide_eq_true_eq] at hxy hyz ⊢
    exact hxy.trans hyz
  total x hx y hy hne := by
    have hkey : ratingKey (gameCountPerServerId now db) x ≠
        ratingKey (gameCountPerServerId now db) y := by
      intro heq
      have hpk : x.pk = y.pk := congrArg (fun key => (ofLex (ofLex key).2).2) heq
      exact hne
        (db.servers.eq_of_key_eq (List.mem_of_mem_filter hx) (List.mem_of_mem_filter hy) hpk)
    rw [sortsBefore, sortsBefore, decide_eq_true_eq, decide_eq_true_eq]
    exact lt_or_gt_of_ne hkey

theorem perm_serversSortedByRating (now : Time) (db : Database) :
    (serversSortedByRating now db).Perm (activeServers now db) := by
  rw [serversSortedByRating, activeServers]
  refine (List.perm_insertionSort _ _).trans (List.Perm.of_eq (List.filter_congr ?_))
  intro server _
  rw [Bool.eq_iff_iff, decide_eq_true_eq]
  exact mem_keys_gameCounts server

theorem pairwise_serversSortedByRating (now : Time) (db : Database) :
    (serversSortedByRating now db).Pairwise fun x y => sortsBefore now db x y = true := by
  have hperm := perm_serversSortedByRating now db
  have hnodup : (serversSortedByRating now db).Nodup :=
    hperm.nodup_iff.mpr ((List.Nodup.of_map _ db.servers.nodup).filter _)
  have hsorted : (serversSortedByRating now db).Pairwise fun x y =>
      ratingKey (gameCountPerServerId now db) x ≤ ratingKey (gameCountPerServerId now db) y :=
    List.pairwise_insertionSort _ _
  apply (hsorted.and hnodup).imp_of_mem
  rintro x y hx hy ⟨hle, hne⟩
  obtain hxy | hyx := (ordersRows_sortsBefore now db).total x (hperm.mem_iff.mp hx) y
    (hperm.mem_iff.mp hy) hne
  · exact hxy
  · rw [sortsBefore, decide_eq_true_eq] at hyx
    exact absurd hle (not_le_of_gt hyx)

def place (now : Time) (db : Database) (server : Server) : ℕ :=
  RowNumber.rowNumber (fun _ => ()) (sortsBefore now db) (activeServers now db) server

theorem keys_getServersWithRating :
    OrderedDict.keys (_getServersWithRating now db) =
      (serversSortedByRating now db).map Server.pk := by
  rw [OrderedDict.keys, _getServersWithRating, List.map_map]
  calc
    _ = (((serversSortedByRating now db).zipIdx 1).map Prod.fst).map Server.pk := by
      rw [List.map_map]
      rfl
    _ = (serversSortedByRating now db).map Server.pk := by rw [List.zipIdx_map_fst]

theorem get?_getServersWithRating {server : Server} (h : server ∈ activeServers now db) :
    OrderedDict.get? (_getServersWithRating now db) server.pk = some (place now db server) := by
  have hperm := perm_serversSortedByRating now db
  obtain ⟨i, hi, rfl⟩ := List.mem_iff_getElem.mp (hperm.mem_iff.mpr h)
  apply OrderedDict.get?_of_mem
  · rw [keys_getServersWithRating, (hperm.map _).nodup_iff]
    exact db.servers.nodup.sublist (List.filter_sublist.map _)
  · have horder : OrdersRows (sortsBefore now db) (serversSortedByRating now db) := by
      have hactive := ordersRows_sortsBefore now db
      constructor
      · exact fun x hx => hactive.irrefl x (hperm.mem_iff.mp hx)
      · exact fun x hx y hy z hz => hactive.trans x (hperm.mem_iff.mp hx) y (hperm.mem_iff.mp hy)
          z (hperm.mem_iff.mp hz)
      · exact fun x hx y hy => hactive.total x (hperm.mem_iff.mp hx) y (hperm.mem_iff.mp hy)
    have hplace : place now db (serversSortedByRating now db)[i] = i + 1 := by
      rw [place, ← RowNumber.rowNumber_perm hperm]
      exact RowNumber.rowNumber_of_pairwise horder (pairwise_serversSortedByRating now db) hi
    rw [hplace, _getServersWithRating, List.mem_map]
    refine ⟨((serversSortedByRating now db)[i], i + 1), ?_, rfl⟩
    rw [List.mem_iff_getElem]
    refine ⟨i, by simpa using hi, ?_⟩
    rw [List.getElem_zipIdx, Nat.add_comm]

theorem rating_of_not_active {server : Server} (h : isActive now db server = false) :
    (rated now updatedAt db server).rating = none := by
  rw [rated, OrderedDict.get?_eq_none_iff, keys_getServersWithRating]
  intro hmem
  obtain ⟨other, hother, hpk⟩ := List.mem_map.mp hmem
  have hactive := (List.mem_filter.mp ((perm_serversSortedByRating now db).mem_iff.mp hother)).2
  rw [← mem_keys_gameCounts, hpk, mem_keys_gameCounts, h] at hactive
  cases hactive

def RatedBetter (x y : Server) : Prop := ∃ m n, x.rating = some m ∧ y.rating = some n ∧ m < n

/-- The ratings of `db'` number the servers that are active in `db`. -/
structure RatesActive (now : Time) (db db' : Database) : Prop where
  servers : db'.servers.rows.map Server.pk = db.servers.rows.map Server.pk
  numbered : ((db'.servers.rows.filter (isActive now db)).map Server.rating).Perm
    ((List.range' 1 (db'.servers.rows.filter (isActive now db)).length).map some)
  unrated : ∀ server ∈ db'.servers.rows, isActive now db server = false → server.rating = none
  moreGames : ∀ x ∈ db'.servers.rows, ∀ y ∈ db'.servers.rows, isActive now db y = true →
    gamesInPeriod now db y < gamesInPeriod now db x → RatedBetter x y

structure RatesServers (now : Time) (db db' : Database) : Prop
    extends RatesActive now db db' where
  hostnames : ∀ x ∈ db'.servers.rows, ∀ y ∈ db'.servers.rows, isActive now db x = true →
    gamesInPeriod now db x = gamesInPeriod now db y → hasHostname x = true →
    hasHostname y = false → RatedBetter x y

/-- The order that is computed: of equally many games, those of a server without a hostname
first. -/
structure RatesNamelessFirst (now : Time) (db db' : Database) : Prop
    extends RatesActive now db db' where
  nameless : ∀ x ∈ db'.servers.rows, ∀ y ∈ db'.servers.rows, isActive now db x = true →
    gamesInPeriod now db x = gamesInPeriod now db y → hasHostname x = false →
    hasHostname y = true → RatedBetter x y

/-- Two active servers with equally many games, only one of which has a hostname. -/
def MixedTie (now : Time) (db : Database) : Prop :=
  ∃ x ∈ db.servers.rows, ∃ y ∈ db.servers.rows, isActive now db x = true ∧
    gamesInPeriod now db x = gamesInPeriod now db y ∧ hasHostname x = true ∧ hasHostname y = false

theorem mem_activeServers {server : Server} :
    server ∈ activeServers now db ↔ server ∈ db.servers.rows ∧ isActive now db server = true :=
  List.mem_filter

theorem isActive_of_le {x y : Server} (hy : isActive now db y = true)
    (h : gamesInPeriod now db y ≤ gamesInPeriod now db x) : isActive now db x = true := by
  rw [isActive, decide_eq_true_eq] at hy ⊢
  omega

theorem ratedBetter_iff {x y : Server} (hx : x ∈ activeServers now db)
    (hy : y ∈ activeServers now db) :
    RatedBetter (rated now updatedAt db x) (rated now updatedAt db y) ↔
      sortsBefore now db x y = true := by
  have hratingX : (rated now updatedAt db x).rating = some (place now db x) :=
    get?_getServersWithRating hx
  have hratingY : (rated now updatedAt db y).rating = some (place now db y) :=
    get?_getServersWithRating hy
  have hplace : place now db x < place now db y ↔ sortsBefore now db x y = true :=
    RowNumber.rowNumber_lt_iff (ordersRows_sortsBefore now db) hx hy rfl
  rw [RatedBetter, hratingX, hratingY, ← hplace]
  constructor
  · rintro ⟨m, n, hm, hn, hlt⟩
    cases hm
    cases hn
    exact hlt
  · intro hlt
    exact ⟨_, _, rfl, rfl, hlt⟩

theorem ratesActive_withNewRatings (now updatedAt : Time) (db : Database) :
    RatesActive now db (withNewRatings now updatedAt db) := by
  have hrows : (withNewRatings now updatedAt db).servers.rows =
      db.servers.rows.map (rated now updatedAt db) := rfl
  have hfilter : (db.servers.rows.map (rated now updatedAt db)).filter (isActive now db) =
      (activeServers now db).map (rated now updatedAt db) := List.filter_map
  constructor
  · rw [hrows, List.map_map]
    rfl
  · have hratings : ((activeServers now db).map (rated now updatedAt db)).map Server.rating =
        ((activeServers now db).map (place now db)).map some := by
      rw [List.map_map, List.map_map]
      exact List.map_congr_left fun server hserver => get?_getServersWithRating hserver
    have hplaces := RowNumber.perm_range' (fun _ => ()) (ordersRows_sortsBefore now db)
      ((List.Nodup.of_map _ db.servers.nodup).filter _) ()
    have hpart : RowNumber.partition (fun _ => ()) (activeServers now db) () =
        activeServers now db := by
      simp [RowNumber.partition]
    rw [hpart] at hplaces
    rw [hrows, hfilter, hratings, List.length_map]
    exact hplaces.map some
  · intro server hserver hinactive
    rw [hrows] at hserver
    obtain ⟨server, _, rfl⟩ := List.mem_map.mp hserver
    exact rating_of_not_active hinactive
  · intro x hx y hy hactive hmore
    rw [hrows] at hx hy
    obtain ⟨x, hmemX, rfl⟩ := List.mem_map.mp hx
    obtain ⟨y, hmemY, rfl⟩ := List.mem_map.mp hy
    have hactiveX : isActive now db x = true := isActive_of_le hactive hmore.le
    exact (ratedBetter_iff (mem_activeServers.mpr ⟨hmemX, hactiveX⟩)
      (mem_activeServers.mpr ⟨hmemY, hactive⟩)).mpr
      ((sortsBefore_iff hactiveX hactive).mpr (Or.inl hmore))

/-- The empty hostname is the first one, so of a mixed tie the nameless server is rated better. -/
theorem ratedBetter_of_mixed {x y : Server} (hx : x ∈ db.servers.rows) (hy : y ∈ db.servers.rows)
    (hactive : isActive now db x = true) (hgames : gamesInPeriod now db x = gamesInPeriod now db y)
    (hnameless : hasHostname x = false) (hnamed : hasHostname y = true) :
    RatedBetter (rated now updatedAt db x) (rated now updatedAt db y) := by
  have hactiveY : isActive now db y = true := isActive_of_le hactive hgames.le
  rw [hasHostname, decide_eq_true_eq] at hnamed
  rw [hasHostname, decide_eq_false_iff_not, not_not] at hnameless
  rw [ratedBetter_iff (mem_activeServers.mpr ⟨hx, hactive⟩)
    (mem_activeServers.mpr ⟨hy, hactiveY⟩), sortsBefore_iff hactive hactiveY, hnameless]
  obtain ⟨c, rest, hhostname⟩ := List.exists_cons_of_ne_nil hnamed
  rw [hhostname]
  exact .inr ⟨hgames.symm, .inl (List.nil_lt_cons c rest)⟩

theorem not_ratedBetter_of_mixed {x y : Server} (hx : x ∈ db.servers.rows)
    (hy : y ∈ db.servers.rows) (hactive : isActive now db x = true)
    (hgames : gamesInPeriod now db x = gamesInPeriod now db y) (hnamed : hasHostname x = true)
    (hnameless : hasHostname y = false) :
    ¬ RatedBetter (rated now updatedAt db x) (rated now updatedAt db y) := by
  obtain ⟨m, n, hm, hn, hlt⟩ := @ratedBetter_of_mixed now updatedAt db y x hy hx
    (isActive_of_le hactive hgames.le) hgames.symm hnameless hnamed
  rintro ⟨n', m', hn', hm', hlt'⟩
  rw [hm] at hm'
  rw [hn] at hn'
  cases hm'
  cases hn'
  omega

theorem ratesNamelessFirst_withNewRatings (now updatedAt : Time) (db : Database) :
    RatesNamelessFirst now db (withNewRatings now updatedAt db) where
  toRatesActive := ratesActive_withNewRatings now updatedAt db
  nameless := by
    intro x hx y hy hactive hgames hnameless hnamed
    obtain ⟨x, hmemX, rfl⟩ := List.mem_map.mp hx
    obtain ⟨y, hmemY, rfl⟩ := List.mem_map.mp hy
    exact ratedBetter_of_mixed hmemX hmemY hactive hgames hnameless hnamed

theorem updateRatings_rates_iff (now updatedAt : Time) {chunkSize : ℕ} (hchunk : 0 < chunkSize)
    (db : Database) :
    ∃ db', (updateRatings now updatedAt chunkSize).run db = (.ok ⟨⟩, db') ∧
      RatesNamelessFirst now db db' ∧ (RatesServers now db db' ↔ ¬ MixedTie now db) := by
  have hnameless := ratesNamelessFirst_withNewRatings now updatedAt db
  refine ⟨_, run_updateRatings now updatedAt hchunk db, hnameless, ?_⟩
  constructor
  · rintro hrates ⟨x, hx, y, hy, hactive, hgames, hnamed, hnohostname⟩
    have hbetter := hrates.hostnames _ (List.mem_map_of_mem hx) _ (List.mem_map_of_mem hy) hactive
      hgames hnamed hnohostname
    exact not_ratedBetter_of_mixed hx hy hactive hgames hnamed hnohostname hbetter
  · intro hmixed
    refine ⟨hnameless.toRatesActive, ?_⟩
    intro x hx y hy hactive hgames hnamed hnohostname
    obtain ⟨x, hmemX, rfl⟩ := List.mem_map.mp hx
    obtain ⟨y, hmemY, rfl⟩ := List.mem_map.mp hy
    exact absurd ⟨x, hmemX, y, hmemY, hactive, hgames, hnamed, hnohostname⟩ hmixed

def namedAndNameless : Database :=
  { Database.empty with
    servers := ⟨[{ pk := 1, ip := 1, port := 10480, hostname := some "Swat4 Server".toList },
      { pk := 2, ip := 2, port := 10480 }], by decide⟩ }

def oneGameEach : Database :=
  { namedAndNameless with
    games := ⟨[sampleGame, { sampleGame with pk := 1, server := 2 }], by decide⟩ }

theorem updateRatings_rates_oneGameEach :
    ∃ db', (updateRatings 0 0 1000).run oneGameEach = (.ok ⟨⟩, db') ∧
      RatesNamelessFirst 0 oneGameEach db' ∧ ¬ RatesServers 0 oneGameEach db' := by
  obtain ⟨db', hrun, hrates, hiff⟩ :=
    updateRatings_rates_iff 0 0 (by decide : 0 < 1000) oneGameEach
  have hmixed : MixedTie 0 oneGameEach := by
    unfold MixedTie
    decide +kernel
  exact ⟨db', hrun, hrates, fun hservers => hiff.mp hservers hmixed⟩

theorem oneGameEach_favoursNameless :
    ¬ ∀ db', (updateRatings 0 0 1000).run oneGameEach = (.ok ⟨⟩, db') →
      RatesServers 0 oneGameEach db' := by
  intro hall
  have hrates := hall _ (run_updateRatings 0 0 (by decide) oneGameEach)
  have hbetter := hrates.hostnames _ (List.mem_map_of_mem (List.mem_cons_self ..)) _
    (List.mem_map_of_mem (List.mem_cons_of_mem _ (List.mem_singleton_self _)))
    (by decide +kernel) (by decide +kernel) (by decide +kernel) (by decide +kernel)
  exact not_ratedBetter_of_mixed (List.mem_cons_self ..)
    (List.mem_cons_of_mem _ (List.mem_singleton_self _)) (by decide +kernel) (by decide +kernel)
    (by decide +kernel) (by decide +kernel) hbetter

end ServerManager

end Swat4Stats
