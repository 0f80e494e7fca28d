import Swat4Stats.ServerMerge
import Swat4Stats.Library.Transition
import Mathlib.Data.List.Perm.Subperm

/-!
# The merge graph

Merges keep the servers a forest of height one: a merged server points to a server that is not
merged, is disabled and owns no game. The state machine lets servers be created, games be saved
for servers that are not merged, and the merge task be called with any arguments.
-/

namespace Swat4Stats

set_option autoImplicit false

open Tx Transition

namespace ServerManager

/-- What the five game columns of a server say about the games it owns. -/
structure IsGameStats (games : List Game) (serverId : ServerId) (stats : GameStats) : Prop where
  count : stats.gameCount = games.countP fun g => g.server = serverId
  noGames : (∀ g ∈ games, g.server ≠ serverId) → stats = {}
  first : ∀ g ∈ games, g.server = serverId → (∀ h ∈ games, h.server = serverId → g.pk ≤ h.pk) →
    stats.firstGame = some g.pk ∧ stats.firstGamePlayedAt = some g.dateFinished
  latest : ∀ g ∈ games, g.server = serverId → (∀ h ∈ games, h.server = serverId → h.pk ≤ g.pk) →
    stats.latestGame = some g.pk ∧ stats.latestGamePlayedAt = some g.dateFinished

theorem groupGames_eq_none {games : List Game} {id : ServerId}
    (h : ∀ g ∈ games, g.server ≠ id) : groupGames games id = none := by
  have hnil : games.filter (fun g => g.server = id) = [] := by
    rw [List.filter_eq_nil_iff]
    intro g hg
    simpa using h g hg
  simp [groupGames, hnil]

theorem groupGames_eq_some {games : List Game} {id : ServerId} {g : Game}
    (hg : g ∈ games) (hid : g.server = id) : ∃ stats, groupGames games id = some stats ∧
      stats.gameCount = games.countP (fun g => g.server = id) ∧
      (∃ h ∈ games, h.server = id ∧ h.pk = stats.firstGameId) ∧
      (∃ h ∈ games, h.server = id ∧ h.pk = stats.latestGameId) ∧
      ∀ h ∈ games, h.server = id → stats.firstGameId ≤ h.pk ∧ h.pk ≤ stats.latestGameId := by
  set pks := (games.filter fun g => g.server = id).map Game.pk with hpks
  have hmem : ∀ k, k ∈ pks ↔ ∃ h ∈ games, h.server = id ∧ h.pk = k := by
    intro k
    simp [hpks, and_assoc]
  have hne : pks ≠ [] := List.ne_nil_of_mem ((hmem g.pk).mpr ⟨g, hg, hid, rfl⟩)
  obtain ⟨first, hfirst⟩ : ∃ first, pks.min? = some first := by
    rw [← Option.isSome_iff_exists, List.isSome_min?_iff]
    exact hne
  obtain ⟨latest, hlatest⟩ : ∃ latest, pks.max? = some latest := by
    rw [← Option.isSome_iff_exists, List.isSome_max?_iff]
    exact hne
  have hmin := List.min?_eq_some_iff.mp hfirst
  have hmax := List.max?_eq_some_iff.mp hlatest
  refine ⟨⟨pks.length, first, latest⟩, ?_, ?_, (hmem first).mp hmin.1, (hmem latest).mp hmax.1, ?_⟩
  · simp [groupGames, ← hpks, hfirst, hlatest]
  · simp [hpks, List.countP_eq_length_filter]
  · intro h hh hhid
    have hpk := (hmem h.pk).mpr ⟨h, hh, hhid, rfl⟩
    exact ⟨hmin.2 _ hpk, hmax.2 _ hpk⟩

theorem datePlayed_eq_some {games : Table Game Game.pk} {gameIds : List GameId} {g : Game}
    (hg : g ∈ games.rows) (hid : g.pk ∈ gameIds) :
    datePlayed games.rows gameIds g.pk = some g.dateFinished := by
  have hfind : (games.rows.filter fun g => g.pk ∈ gameIds).find? (fun h => h.pk = g.pk) =
      some g := by
    cases h : (games.rows.filter fun g => g.pk ∈ gameIds).find? (fun h => h.pk = g.pk) with
    | none =>
      have hnone := List.find?_eq_none.mp h g (List.mem_filter.mpr ⟨hg, by simpa using hid⟩)
      simp at hnone
    | some h' =>
      have hpk : h'.pk = g.pk := by simpa using List.find?_some h
      have hmem := (List.mem_filter.mp (List.mem_of_find?_eq_some h)).1
      rw [games.eq_of_key_eq hmem hg hpk]
  simp [datePlayed, hfind]

/-- The columns that `denormGameStats` writes for one server, when it is called for `ids`. -/
def denormalised (games : List Game) (ids : List ServerId) (id : ServerId) : GameStats :=
  gameStatsOf (groupGames games id)
    (datePlayed games (ids.flatMap fun id => extremeGameIds (groupGames games id)))

theorem isGameStats_denormalised (games : Table Game Game.pk) {ids : List ServerId}
    {id : ServerId} (hid : id ∈ ids) :
    IsGameStats games.rows id (denormalised games.rows ids id) := by
  by_cases hnone : ∀ g ∈ games.rows, g.server ≠ id
  · have hgroup := groupGames_eq_none hnone
    refine ⟨?_, fun _ => by simp [denormalised, hgroup, gameStatsOf], ?_, ?_⟩
    · have hcount : games.rows.countP (fun g => g.server = id) = 0 := by
        rw [List.countP_eq_zero]
        simpa using hnone
      simp [denormalised, hgroup, gameStatsOf, hcount]
    · intro g hg hgid
      exact absurd hgid (hnone g hg)
    · intro g hg hgid
      exact absurd hgid (hnone g hg)
  · push Not at hnone
    obtain ⟨g₀, hg₀, hg₀id⟩ := hnone
    obtain ⟨stats, hgroup, hcount, ⟨f, hf, hfid, hfpk⟩, ⟨l, hl, hlid, hlpk⟩, hbounds⟩ :=
      groupGames_eq_some hg₀ hg₀id
    have hext : ∀ k ∈ [stats.firstGameId, stats.latestGameId],
        k ∈ ids.flatMap fun id => extremeGameIds (groupGames games.rows id) := by
      intro k hk
      refine List.mem_flatMap.mpr ⟨id, hid, ?_⟩
      rw [hgroup]
      exact hk
    refine ⟨?_, fun h => absurd hg₀id (h g₀ hg₀), ?_, ?_⟩
    · simp [denormalised, hgroup, gameStatsOf, hcount]
    · intro g hg hgid hleast
      have hpk : g.pk = stats.firstGameId :=
        le_antisymm (hfpk ▸ hleast f hf hfid) (hbounds g hg hgid).1
      refine ⟨by simp [denormalised, hgroup, gameStatsOf, hpk], ?_⟩
      have hdate := datePlayed_eq_some hg (by rw [hpk]; exact hext stats.firstGameId (by simp))
      simpa [denormalised, hgroup, gameStatsOf, ← hpk] using hdate
    · intro g hg hgid hgreatest
      have hpk : g.pk = stats.latestGameId :=
        le_antisymm (hbounds g hg hgid).2 (hlpk ▸ hgreatest l hl hlid)
      refine ⟨by simp [denormalised, hgroup, gameStatsOf, hpk], ?_⟩
      have hdate := datePlayed_eq_some hg (by rw [hpk]; exact hext stats.latestGameId (by simp))
      simpa [denormalised, hgroup, gameStatsOf, ← hpk] using hdate

theorem lookup_map_self {β : Type} (f : ServerId → β) {ids : List ServerId} {id : ServerId}
    (hid : id ∈ ids) : (ids.map fun id => (id, f id)).lookup id = some (f id) := by
  induction ids with
  | nil => cases hid
  | cons k ids ih =>
    by_cases hk : id = k
    · subst hk
      simp
    · have hid : id ∈ ids := by simpa [hk] using hid
      have hbeq : (id == k) = false := by simpa using hk
      simpa [List.lookup_cons, hbeq] using ih hid

def withGameStats (ids : List ServerId) (db : Database) : Database :=
  { db with
    servers := db.servers.update (fun s => s.pk ∈ ids)
      (fun s => { s with stats := denormalised db.games.rows ids s.pk }) fun _ => rfl }

theorem run_denormGameStats (ids : List ServerId) (db : Database) :
    (denormGameStats ids).run db = (.ok (), withGameStats ids db) := by
  rw [denormGameStats, run_atomic]
  simp only [run_bind, run_read, run_write]
  have hservers : db.servers.update (fun s => s.pk ∈ ids)
      (fun s => { s with
        stats := gameStatsOf
          ((ids.map fun id => (id, groupGames db.games.rows id)).lookup s.pk).join
          (datePlayed db.games.rows
            ((ids.map fun id => (id, groupGames db.games.rows id)).flatMap fun item =>
              extremeGameIds item.2)) }) (fun _ => rfl) =
      (withGameStats ids db).servers := by
    apply Table.ext
    simp only [withGameStats, Table.rows_update]
    apply List.map_congr_left
    intro s _
    by_cases hs : s.pk ∈ ids
    · simp [hs, lookup_map_self _ hs, denormalised, List.flatMap_map]
    · simp [hs]
  rw [hservers]
  rfl

theorem mapM_find?_eq_some {servers : Table Server Server.pk} {ids : List ServerId}
    {merged : List Server} (h : ids.mapM servers.find? = some merged) :
    merged.map Server.pk = ids ∧ ∀ s ∈ merged, s ∈ servers.rows := by
  induction ids generalizing merged with
  | nil =>
    obtain rfl : [] = merged := by simpa using h
    simp
  | cons id ids ih =>
    rw [List.mapM_cons] at h
    obtain ⟨s, hs, h⟩ := Option.bind_eq_some_iff.mp h
    obtain ⟨rest, hrest, h⟩ := Option.bind_eq_some_iff.mp h
    obtain rfl : s :: rest = merged := by simpa using h
    obtain ⟨hmem, hpk⟩ := Table.find?_eq_some_iff.mp hs
    obtain ⟨hpks, hmems⟩ := ih hrest
    constructor
    · simp [hpk, hpks]
    · simpa [hmem] using hmems

theorem mapM_find?_isSome {servers : Table Server Server.pk} {ids : List ServerId}
    (h : ∀ id ∈ ids, ∃ s ∈ servers.rows, s.pk = id) :
    ∃ merged, ids.mapM servers.find? = some merged := by
  induction ids with
  | nil => exact ⟨[], by simp⟩
  | cons id ids ih =>
    obtain ⟨s, hs, rfl⟩ := h id (by simp)
    obtain ⟨merged, hmerged⟩ := ih fun id hid => h id (by simp [hid])
    exact ⟨s :: merged, by simp [List.mapM_cons, Table.find?_of_mem hs, hmerged]⟩

/-- When the number of rows that the update touched is the number of ids, no id was repeated and
none was merged before. -/
theorem forall_unmerged_of_countP {servers : Table Server Server.pk} {mainId : ServerId}
    {mergedIds : List ServerId}
    (hcount : servers.rows.countP (isMergeable mainId mergedIds) = mergedIds.length) :
    mergedIds.Nodup ∧ ∀ s ∈ servers.rows, s.pk ∈ mergedIds → s.mergedInto = none := by
  set touched := (servers.rows.filter (isMergeable mainId mergedIds)).map Server.pk with htouched
  have hnodup : touched.Nodup :=
    servers.nodup.sublist (List.Sublist.map Server.pk List.filter_sublist)
  have hsubset : touched ⊆ mergedIds := by
    intro id hid
    obtain ⟨s, hs, rfl⟩ := List.mem_map.mp hid
    have hp := (List.mem_filter.mp hs).2
    simp only [isMergeable, decide_eq_true_eq] at hp
    exact hp.2.2
  have hlength : mergedIds.length ≤ touched.length := by
    rw [htouched, List.length_map, ← List.countP_eq_length_filter, hcount]
  have hperm : touched.Perm mergedIds :=
    (List.subperm_of_subset hnodup hsubset).perm_of_length_le hlength
  refine ⟨hperm.nodup_iff.mp hnodup, fun s hs hid => ?_⟩
  obtain ⟨s', hs', hpk⟩ := List.mem_map.mp (hperm.mem_iff.mpr hid)
  obtain ⟨hmem, hp⟩ := List.mem_filter.mp hs'
  obtain rfl : s' = s := servers.eq_of_key_eq hmem hs hpk
  simp only [isMergeable, decide_eq_true_eq] at hp
  exact hp.2.1

theorem countP_isMergeable {servers : Table Server Server.pk} {mainId : ServerId}
    {mergedIds : List ServerId} (hmain : mainId ∉ mergedIds) (hnodup : mergedIds.Nodup)
    (hunmerged : ∀ id ∈ mergedIds, ∃ s ∈ servers.rows, s.pk = id ∧ s.mergedInto = none) :
    servers.rows.countP (isMergeable mainId mergedIds) = mergedIds.length := by
  set touched := (servers.rows.filter (isMergeable mainId mergedIds)).map Server.pk with htouched
  have hperm : touched.Perm mergedIds := by
    rw [List.perm_ext_iff_of_nodup
      (servers.nodup.sublist (List.Sublist.map Server.pk List.filter_sublist)) hnodup]
    intro id
    constructor
    · intro hid
      obtain ⟨s, hs, rfl⟩ := List.mem_map.mp hid
      have hp := (List.mem_filter.mp hs).2
      simp only [isMergeable, decide_eq_true_eq] at hp
      exact hp.2.2
    · intro hid
      obtain ⟨s, hs, rfl, hnone⟩ := hunmerged id hid
      have hne : s.pk ≠ mainId := fun h => hmain (h ▸ hid)
      exact List.mem_map_of_mem (List.mem_filter.mpr ⟨hs, by simp [isMergeable, hne, hnone, hid]⟩)
  rw [List.countP_eq_length_filter, ← hperm.length_eq, htouched, List.length_map]

/-- The database after the statements of `_mergeServers`. -/
def afterMerge (now : Time) (mainId : ServerId) (mergedIds : List ServerId) (db : Database) :
    Database :=
  let marked := markMerged now mainId mergedIds (moveGames mainId mergedIds db)
  repoint mainId ((marked.servers.rows.filter (isIndirect mainId mergedIds)).map Server.pk) marked

theorem repoint_nil (mainId : ServerId) (db : Database) : repoint mainId [] db = db := by
  have hservers : db.servers.update (fun s => s.pk ∈ ([] : List ServerId))
      (fun s => { s with mergedInto := some mainId }) (fun _ => rfl) = db.servers :=
    Table.update_of_forall_not (by simp)
  rw [repoint, hservers]

theorem run_mergeStatements (now : Time) (mainId : ServerId) (mergedIds : List ServerId)
    (db : Database) :
    (_mergeServers now mainId mergedIds).run db =
      if db.servers.rows.countP (isMergeable mainId mergedIds) = mergedIds.length then
        (.ok (), afterMerge now mainId mergedIds db)
      else
        (.error (.raised (.mergeServersError "failed to merge all servers")),
          markMerged now mainId mergedIds (moveGames mainId mergedIds db)) := by
  have hservers : (moveGames mainId mergedIds db).servers = db.servers := rfl
  simp only [_mergeServers, run_bind, run_write, run_statement, hservers]
  by_cases hcount : db.servers.rows.countP (isMergeable mainId mergedIds) = mergedIds.length
  · simp only [hcount, ne_eq, not_true_eq_false, if_false, run_bind, run_read, if_true]
    by_cases hind : ((markMerged now mainId mergedIds (moveGames mainId mergedIds db)).servers.rows
        |>.filter (isIndirect mainId mergedIds)).map Server.pk = []
    · simp only [afterMerge, hind, not_true_eq_false, if_false, run_pure, repoint_nil]
    · simp only [afterMerge, hind, not_false_eq_true, if_true, run_write]
  · simp only [hcount, ne_eq, not_false_eq_true, if_true, run_raise, if_false]

/-- What a merge makes of one server, its game stats apart. -/
def mergedServer (now : Time) (mainId : ServerId) (mergedIds : List ServerId) (s : Server) :
    Server :=
  if s.pk ∈ mergedIds then
    { s with enabled := false, mergedInto := some mainId, mergedIntoAt := some now }
  else if isIndirect mainId mergedIds s then
    { s with mergedInto := some mainId }
  else
    s

theorem mergedServer_pk {now : Time} {mainId : ServerId} {mergedIds : List ServerId} {s : Server} :
    (mergedServer now mainId mergedIds s).pk = s.pk := by
  unfold mergedServer
  split
  · rfl
  · split <;> rfl

theorem mergedServer_of_unmerged {now : Time} {mainId : ServerId} {mergedIds : List ServerId}
    {s : Server} (hs : s.mergedInto = none) (hid : s.pk ∉ mergedIds) :
    mergedServer now mainId mergedIds s = s := by
  simp [mergedServer, hid, isIndirect, hs]

theorem servers_afterMerge (now : Time) {mainId : ServerId} {mergedIds : List ServerId}
    {db : Database} (hmain : mainId ∉ mergedIds)
    (hunmerged : ∀ s ∈ db.servers.rows, s.pk ∈ mergedIds → s.mergedInto = none) :
    (afterMerge now mainId mergedIds db).servers.rows =
      db.servers.rows.map (mergedServer now mainId mergedIds) := by
  set marked := markMerged now mainId mergedIds (moveGames mainId mergedIds db) with hmarked
  have hindirect : ∀ s ∈ marked.servers.rows,
      (s.pk ∈ (marked.servers.rows.filter (isIndirect mainId mergedIds)).map Server.pk ↔
        isIndirect mainId mergedIds s = true) := by
    intro s hs
    constructor
    · intro hid
      obtain ⟨t, ht, hpk⟩ := List.mem_map.mp hid
      obtain ⟨ht, hind⟩ := List.mem_filter.mp ht
      rwa [marked.servers.eq_of_key_eq ht hs hpk] at hind
    · intro hind
      exact List.mem_map_of_mem (List.mem_filter.mpr ⟨hs, hind⟩)
  have hrows : marked.servers.rows = db.servers.rows.map fun s =>
      if isMergeable mainId mergedIds s then
        { s with enabled := false, mergedInto := some mainId, mergedIntoAt := some now }
      else s := rfl
  rw [afterMerge, ← hmarked]
  simp only [repoint, Table.rows_update]
  calc
    _ = marked.servers.rows.map fun s =>
        if isIndirect mainId mergedIds s then { s with mergedInto := some mainId } else s := by
      apply List.map_congr_left
      intro s hs
      simp [hindirect s hs]
    _ = db.servers.rows.map (mergedServer now mainId mergedIds) := by
      rw [hrows, List.map_map]
      apply List.map_congr_left
      intro s hs
      by_cases hid : s.pk ∈ mergedIds
      · have hne : s.pk ≠ mainId := fun h => hmain (h ▸ hid)
        -- a server marked by this merge points to the main one, which is not among the merged
        simp [mergedServer, isMergeable, isIndirect, hid, hne, hmain, hunmerged s hs hid]
      · simp [mergedServer, isMergeable, hid]

/-- A merge moves the games of the merged servers and nothing else, marks the merged servers,
re-points those merged earlier into one of them, and recounts the games of all it was called
with. -/
structure MergeOutcome (now : Time) (mainId : ServerId) (mergedIds : List ServerId)
    (db db' : Database) : Prop where
  games : db'.games.rows = db.games.rows.map fun g =>
    if g.server ∈ mergedIds then { g with server := mainId } else g
  pks : db'.servers.rows.map Server.pk = db.servers.rows.map Server.pk
  servers : ∀ s ∈ db.servers.rows, ∃ stats,
    db'.servers.find? s.pk = some { mergedServer now mainId mergedIds s with stats } ∧
    (s.pk ∈ mainId :: mergedIds → IsGameStats db'.games.rows s.pk stats) ∧
    (s.pk ∉ mainId :: mergedIds → stats = s.stats)
  frame : db' = { db with servers := db'.servers, games := db'.games }

theorem mergeOutcome_afterMerge (now : Time) {mainId : ServerId} {mergedIds : List ServerId}
    {db : Database} (hmain : mainId ∉ mergedIds)
    (hunmerged : ∀ s ∈ db.servers.rows, s.pk ∈ mergedIds → s.mergedInto = none) :
    MergeOutcome now mainId mergedIds db
      (withGameStats (mainId :: mergedIds) (afterMerge now mainId mergedIds db)) := by
  have hrows := servers_afterMerge now hmain hunmerged
  have hservers : (withGameStats (mainId :: mergedIds) (afterMerge now mainId mergedIds db)
      ).servers.rows = db.servers.rows.map fun s =>
        { mergedServer now mainId mergedIds s with
          stats :=
            if s.pk ∈ mainId :: mergedIds then
              denormalised (afterMerge now mainId mergedIds db).games.rows
                (mainId :: mergedIds) s.pk
            else (mergedServer now mainId mergedIds s).stats } := by
    simp only [withGameStats, Table.rows_update, hrows, List.map_map]
    apply List.map_congr_left
    intro s _
    have hpk : decide ((mergedServer now mainId mergedIds s).pk ∈ mainId :: mergedIds) =
        decide (s.pk ∈ mainId :: mergedIds) := by
      rw [mergedServer_pk]
    simp only [Function.comp_apply, hpk]
    by_cases hs : s.pk ∈ mainId :: mergedIds
    · simp only [hs, decide_true, if_true, mergedServer_pk]
    · simp only [hs, decide_false, Bool.false_eq_true, if_false]
  refine ⟨?_, ?_, ?_, rfl⟩
  · apply List.map_congr_left
    intro g _
    by_cases hg : g.server ∈ mergedIds
    · have hne : g.server ≠ mainId := fun h => hmain (h ▸ hg)
      simp [hg, hne]
    · simp [hg]
  · rw [hservers, List.map_map]
    apply List.map_congr_left
    intro s _
    exact mergedServer_pk
  · intro s hs
    refine ⟨if s.pk ∈ mainId :: mergedIds then
        denormalised (afterMerge now mainId mergedIds db).games.rows (mainId :: mergedIds) s.pk
      else (mergedServer now mainId mergedIds s).stats, ?_, ?_, ?_⟩
    · rw [Table.find?_eq_some_iff, hservers]
      exact ⟨List.mem_map_of_mem hs, mergedServer_pk⟩
    · intro hid
      rw [if_pos hid]
      exact isGameStats_denormalised _ hid
    · intro hid
      rw [if_neg hid]
      unfold mergedServer
      split
      · rfl
      · split <;> rfl

theorem run_mergeServers (now : Time) (main : Server) (merged : List Server) (db : Database) :
    (∃ message db', (mergeServers now main merged).run db =
      (.error (.raised (.mergeServersError message)), db')) ∨
    main.mergedInto = none ∧ main.pk ∉ merged.map Server.pk ∧
      (∀ s ∈ db.servers.rows, s.pk ∈ merged.map Server.pk → s.mergedInto = none) ∧
      ∃ db', (mergeServers now main merged).run db = (.ok (), db') ∧
        MergeOutcome now main.pk (merged.map Server.pk) db db' := by
  by_cases hunmerged : main.mergedInto ≠ none
  · left
    refine ⟨"cannot merge to a merged server", db, ?_⟩
    simp only [mergeServers, hunmerged, ne_eq, not_false_eq_true, if_true, run_raise]
  by_cases hnil : merged.map Server.pk = []
  · left
    refine ⟨"too few servers to merge", db, ?_⟩
    simp only [mergeServers, hunmerged, if_false, hnil, if_true, run_raise]
  by_cases hself : main.pk ∈ merged.map Server.pk
  · left
    refine ⟨"cannot merge a server into itself", db, ?_⟩
    simp only [mergeServers, hunmerged, hnil, if_false, hself, if_true, run_raise]
  have hrun : (mergeServers now main merged).run db =
      (do _mergeServers now main.pk (merged.map Server.pk)
          denormGameStats (main.pk :: merged.map Server.pk) : DbTx Unit).run db := by
    simp only [mergeServers, hunmerged, hnil, hself, if_false]
  rw [hrun, run_bind, run_mergeStatements]
  by_cases hcount : db.servers.rows.countP (isMergeable main.pk (merged.map Server.pk)) =
      (merged.map Server.pk).length
  · right
    obtain ⟨_, hall⟩ := forall_unmerged_of_countP hcount
    refine ⟨not_not.mp hunmerged, hself, hall, _, ?_, mergeOutcome_afterMerge now hself hall⟩
    rw [if_pos hcount]
    exact run_denormGameStats _ _
  · left
    rw [if_neg hcount]
    exact ⟨_, _, rfl⟩

end ServerManager

namespace Tasks

open ServerManager

/-- The three outcomes of the task: an id is unknown, the manager refuses, or the merge is done. -/
theorem run_mergeServers (now : Time) (mainId : ServerId) (mergedIds : List ServerId)
    (db : Database) :
    ((¬ ∀ id ∈ mainId :: mergedIds, ∃ s ∈ db.servers.rows, s.pk = id) ∧
      ∃ key, (mergeServers now mainId mergedIds).run db = (.error (.raised (.keyError key)), db)) ∨
    (∃ message, (mergeServers now mainId mergedIds).run db =
      (.error (.raised (.mergeServersError message)), db)) ∨
    ∃ main ∈ db.servers.rows, main.pk = mainId ∧ main.mergedInto = none ∧ mainId ∉ mergedIds ∧
      (∀ s ∈ db.servers.rows, s.pk ∈ mergedIds → s.mergedInto = none) ∧
      ∃ db', (mergeServers now mainId mergedIds).run db = (.ok (), db') ∧
        MergeOutcome now mainId mergedIds db db' := by
  rw [mergeServers, run_atomic]
  simp only [run_bind, run_read]
  cases hmain : db.servers.find? mainId with
  | none =>
    left
    refine ⟨fun hall => ?_, toString mainId, by simp⟩
    obtain ⟨s, hs, hpk⟩ := hall mainId (by simp)
    exact Table.find?_eq_none_iff.mp hmain s hs hpk
  | some main =>
    obtain ⟨hmem, rfl⟩ := Table.find?_eq_some_iff.mp hmain
    cases hmerged : mergedIds.mapM db.servers.find? with
    | none =>
      left
      refine ⟨fun hall => ?_, toString mergedIds, by simp⟩
      obtain ⟨merged, hsome⟩ :=
        @mapM_find?_isSome db.servers mergedIds fun id hid => hall id (by simp [hid])
      rw [hmerged] at hsome
      cases hsome
    | some merged =>
      right
      obtain ⟨rfl, _⟩ := mapM_find?_eq_some hmerged
      obtain ⟨message, db', hrun⟩ | ⟨hunmerged, hself, hall, db', hrun, houtcome⟩ :=
        ServerManager.run_mergeServers now main merged db
      · left
        exact ⟨message, by simp [hrun]⟩
      · right
        exact ⟨main, hmem, rfl, hunmerged, hself, hall, db', by simp [hrun], houtcome⟩

theorem exists_of_mergeServers_ok {now : Time} {mainId : ServerId} {mergedIds : List ServerId}
    {db db' : Database} (h : (mergeServers now mainId mergedIds).run db = (.ok (), db')) :
    ∀ id ∈ mergedIds, ∃ s ∈ db.servers.rows, s.pk = id := by
  rw [mergeServers, run_atomic] at h
  simp only [run_bind, run_read] at h
  cases hmain : db.servers.find? mainId with
  | none => simp [hmain] at h
  | some main =>
    cases hmerged : mergedIds.mapM db.servers.find? with
    | none => simp [hmain, hmerged] at h
    | some merged =>
      obtain ⟨rfl, hmem⟩ := mapM_find?_eq_some hmerged
      intro id hid
      obtain ⟨s, hs, rfl⟩ := List.mem_map.mp hid
      exact ⟨s, hmem s hs, rfl⟩

theorem mergeServers_ok_iff {now : Time} {main : Server} {mergedIds : List ServerId} {db : Database}
    (hmain : main ∈ db.servers.rows) (hids : ∀ id ∈ mergedIds, ∃ s ∈ db.servers.rows, s.pk = id) :
    (∃ db', (mergeServers now main.pk mergedIds).run db = (.ok (), db')) ↔
      main.mergedInto = none ∧ mergedIds ≠ [] ∧ main.pk ∉ mergedIds ∧ mergedIds.Nodup ∧
        ∀ s ∈ db.servers.rows, s.pk ∈ mergedIds → s.mergedInto = none := by
  obtain ⟨merged, hmerged⟩ := @mapM_find?_isSome db.servers mergedIds hids
  obtain ⟨rfl, hmem⟩ := mapM_find?_eq_some hmerged
  have hrun : (mergeServers now main.pk (merged.map Server.pk)).run db =
      match (ServerManager.mergeServers now main merged).run db with
      | (.ok a, db') => (.ok a, db')
      | (.error e, _) => (.error e, db) := by
    rw [mergeServers, run_atomic]
    simp only [run_bind, run_read, Table.find?_of_mem hmain, hmerged]
    obtain ⟨_ | _, _⟩ := (ServerManager.mergeServers now main merged).run db <;> rfl
  rw [hrun]
  constructor
  · rintro ⟨db', hok⟩
    by_cases hnone : main.mergedInto = none
    · by_cases hnil : merged.map Server.pk = []
      · simp [ServerManager.mergeServers, hnone, hnil] at hok
      · by_cases hself : main.pk ∈ merged.map Server.pk
        · simp only [ServerManager.mergeServers, hnone, hnil, hself, ne_eq, not_true_eq_false,
            if_false, if_true, run_raise] at hok
          cases hok
        · simp only [ServerManager.mergeServers, hnone, hnil, hself, ne_eq, not_true_eq_false,
            if_false, run_bind, run_mergeStatements] at hok
          by_cases hcount : db.servers.rows.countP
              (isMergeable main.pk (merged.map Server.pk)) = (merged.map Server.pk).length
          · obtain ⟨hnodup, hunmerged⟩ := forall_unmerged_of_countP hcount
            exact ⟨hnone, hnil, hself, hnodup, hunmerged⟩
          · rw [if_neg hcount] at hok
            cases hok
    · simp [ServerManager.mergeServers, hnone] at hok
  · rintro ⟨hnone, hnil, hself, hnodup, hunmerged⟩
    have hcount := countP_isMergeable hself hnodup fun id hid => by
      obtain ⟨s, hs, rfl⟩ := hids id hid
      exact ⟨s, hs, rfl, hunmerged s hs hid⟩
    simp only [ServerManager.mergeServers, hnone, hnil, hself, ne_eq, not_true_eq_false, if_false,
      run_bind, run_mergeStatements, hcount, if_true, run_denormGameStats]
    exact ⟨_, rfl⟩

end Tasks

namespace MergeGraph

open ServerManager

inductive Event where
  | createServer (ip : IPv4) (port : ℕ) (enabled : Bool)
  | saveGame (game : Game)
  | mergeServers (now : Time) (mainId : ServerId) (mergedIds : List ServerId)

def saveGame (game : Game) (db : Database) : Database :=
  { db with games := db.games.create (fun pk => { game with pk }) game.withPk_pk }

def system : System Database Event where
  enabled db
    | .saveGame game => ∃ s ∈ db.servers.rows, s.pk = game.server ∧ s.mergedInto = none
    | _ => True
  next db
    | .createServer ip port enabled => ((ServerManager.createServer ip port enabled).run db).2
    | .saveGame game => saveGame game db
    | .mergeServers now mainId mergedIds => ((Tasks.mergeServers now mainId mergedIds).run db).2

/-- What holds of a server that was merged into `m`. -/
structure Merged (db : Database) (s : Server) (m : ServerId) : Prop where
  ne_self : m ≠ s.pk
  target : ∃ t ∈ db.servers.rows, t.pk = m ∧ t.mergedInto = none
  disabled : s.enabled = false
  noGames : ∀ g ∈ db.games.rows, g.server ≠ s.pk

def Invariant (db : Database) : Prop :=
  ∀ s ∈ db.servers.rows, ∀ m, s.mergedInto = some m → Merged db s m

theorem invariant_of_unmerged {db : Database} (h : ∀ s ∈ db.servers.rows, s.mergedInto = none) :
    Invariant db := by
  intro s hs m hm
  rw [h s hs] at hm
  cases hm

theorem invariant_of_frame {db db' : Database} (hinv : Invariant db)
    (hservers : db'.servers = db.servers) (hgames : db'.games = db.games) : Invariant db' := by
  intro s hs m hm
  rw [hservers] at hs
  obtain ⟨hne, htarget, hdisabled, hnoGames⟩ := hinv s hs m hm
  exact ⟨hne, hservers ▸ htarget, hdisabled, hgames ▸ hnoGames⟩

theorem invariant_update {db : Database} {p : Server → Bool} {f : Server → Server}
    {hf : ∀ s, (f s).pk = s.pk} (hmerged : ∀ s, (f s).mergedInto = s.mergedInto)
    (henabled : ∀ s, (f s).enabled = s.enabled) (hinv : Invariant db) :
    Invariant { db with servers := db.servers.update p f hf } := by
  have hcopy : ∀ s, (if p s then f s else s).pk = s.pk ∧
      (if p s then f s else s).mergedInto = s.mergedInto ∧
      (if p s then f s else s).enabled = s.enabled := by
    intro s
    split
    · exact ⟨hf s, hmerged s, henabled s⟩
    · exact ⟨rfl, rfl, rfl⟩
  intro s' hs' m hm
  have hmem : s' ∈ (db.servers.update p f hf).rows := hs'
  rw [Table.mem_update] at hmem
  obtain ⟨s, hs, rfl⟩ := hmem
  obtain ⟨hpk, hsame, hflag⟩ := hcopy s
  rw [hsame] at hm
  obtain ⟨hne, ⟨t, ht, htpk, htnone⟩, hdisabled, hnoGames⟩ := hinv s hs m hm
  refine ⟨by rwa [hpk], ?_, by rwa [hflag], by rwa [hpk]⟩
  obtain ⟨htpk', htsame, _⟩ := hcopy t
  have hmem : (if p t then f t else t) ∈ (db.servers.update p f hf).rows := by
    rw [Table.mem_update]
    exact ⟨t, ht, rfl⟩
  exact ⟨_, hmem, htpk'.trans htpk, htsame.trans htnone⟩

theorem servers_createServer (ip : IPv4) (port : ℕ) (enabled : Bool) (db : Database) :
    ∃ db', db' = ((ServerManager.createServer ip port enabled).run db).2 ∧
      db'.games = db.games ∧ (∀ s ∈ db.servers.rows, s ∈ db'.servers.rows) ∧
      ∀ s ∈ db'.servers.rows, s ∈ db.servers.rows ∨ s.mergedInto = none := by
  refine ⟨_, rfl, ?_⟩
  simp only [ServerManager.createServer, run_bind, run_read]
  split
  · simp only [run_raise, true_and]
    exact ⟨fun s hs => hs, fun s hs => .inl hs⟩
  · simp only [run_statement, true_and, Table.mem_create]
    refine ⟨fun s hs => .inl hs, ?_⟩
    rintro s (hs | rfl)
    · exact .inl hs
    · exact .inr rfl

theorem invariant_createServer {ip : IPv4} {port : ℕ} {enabled : Bool} {db : Database}
    (hinv : Invariant db) :
    Invariant ((ServerManager.createServer ip port enabled).run db).2 := by
  obtain ⟨db', hdb', hgames, hold, hnew⟩ := servers_createServer ip port enabled db
  rw [← hdb']
  intro s hs m hm
  obtain hs | hnone := hnew s hs
  · obtain ⟨hne, ⟨t, ht, htpk, htnone⟩, hdisabled, hnoGames⟩ := hinv s hs m hm
    exact ⟨hne, ⟨t, hold t ht, htpk, htnone⟩, hdisabled, by rwa [hgames]⟩
  · rw [hnone] at hm
    cases hm

theorem invariant_of_newGame {game : Game} {db db' : Database} (hinv : Invariant db)
    (hservers : db'.servers = db.servers) (hgames : db'.games.rows = db.games.rows ++ [game])
    (hunmerged : ∀ s ∈ db.servers.rows, s.pk = game.server → s.mergedInto = none) :
    Invariant db' := by
  intro s hs m hm
  rw [hservers] at hs
  obtain ⟨hne, htarget, hdisabled, hnoGames⟩ := hinv s hs m hm
  refine ⟨hne, hservers ▸ htarget, hdisabled, ?_⟩
  intro g hg
  rw [hgames] at hg
  obtain hg | hg := List.mem_append.mp hg
  · exact hnoGames g hg
  · cases List.mem_singleton.mp hg
    intro hgs
    rw [hunmerged s hs hgs.symm] at hm
    cases hm

theorem invariant_saveGame {game : Game} {db : Database} (hinv : Invariant db)
    (hserver : ∃ s ∈ db.servers.rows, s.pk = game.server ∧ s.mergedInto = none) :
    Invariant (saveGame game db) := by
  obtain ⟨owner, howner, hpk, hnone⟩ := hserver
  refine invariant_of_newGame hinv rfl rfl ?_
  intro s hs hgs
  rw [← db.servers.eq_of_key_eq howner hs (hpk.trans hgs.symm)]
  exact hnone

theorem mem_of_mergeOutcome {now : Time} {mainId : ServerId} {mergedIds : List ServerId}
    {db db' : Database} (h : MergeOutcome now mainId mergedIds db db') {s' : Server}
    (hs' : s' ∈ db'.servers.rows) :
    ∃ s ∈ db.servers.rows, ∃ stats, s' = { mergedServer now mainId mergedIds s with stats } := by
  have hpk : s'.pk ∈ db.servers.rows.map Server.pk := by
    rw [← h.pks]
    exact List.mem_map_of_mem hs'
  obtain ⟨s, hs, hpk⟩ := List.mem_map.mp hpk
  obtain ⟨stats, hfind, _⟩ := h.servers s hs
  rw [hpk, Table.find?_of_mem hs'] at hfind
  exact ⟨s, hs, stats, Option.some.inj hfind⟩

theorem invariant_of_mergeOutcome {now : Time} {main : Server} {mergedIds : List ServerId}
    {db db' : Database} (hinv : Invariant db) (hmain : main ∈ db.servers.rows)
    (hnone : main.mergedInto = none) (hself : main.pk ∉ mergedIds)
    (h : MergeOutcome now main.pk mergedIds db db') : Invariant db' := by
  -- an unmerged server that the merge does not mark is there afterwards, still unmerged
  have htarget : ∀ t ∈ db.servers.rows, t.mergedInto = none → t.pk ∉ mergedIds →
      ∃ t' ∈ db'.servers.rows, t'.pk = t.pk ∧ t'.mergedInto = none := by
    intro t ht htnone htid
    obtain ⟨stats, hfind, _⟩ := h.servers t ht
    rw [mergedServer_of_unmerged htnone htid] at hfind
    exact ⟨_, (Table.find?_eq_some_iff.mp hfind).1, rfl, htnone⟩
  have hgame : ∀ g' ∈ db'.games.rows, ∃ g ∈ db.games.rows,
      g'.server = if g.server ∈ mergedIds then main.pk else g.server := by
    intro g' hg'
    rw [h.games] at hg'
    obtain ⟨g, hg, rfl⟩ := List.mem_map.mp hg'
    refine ⟨g, hg, ?_⟩
    split <;> rfl
  have hne : ∀ s ∈ db.servers.rows, s.mergedInto ≠ none → s.pk ≠ main.pk := by
    intro s hs hsome hpk
    rw [db.servers.eq_of_key_eq hs hmain hpk] at hsome
    exact hsome hnone
  intro s' hs' m hm
  obtain ⟨s, hs, stats, rfl⟩ := mem_of_mergeOutcome h hs'
  by_cases hid : s.pk ∈ mergedIds
  · -- marked by this merge
    have hmerged : mergedServer now main.pk mergedIds s =
        { s with enabled := false, mergedInto := some main.pk, mergedIntoAt := some now } := by
      simp [mergedServer, hid]
    simp only [hmerged] at hm ⊢
    cases hm
    have hspk : main.pk ≠ s.pk := fun hpk => hself (hpk ▸ hid)
    refine ⟨hspk, htarget main hmain hnone hself, rfl, ?_⟩
    intro g' hg'
    obtain ⟨g, hg, hserver⟩ := hgame g' hg'
    rw [hserver]
    split
    · exact hspk
    · rename_i hgid
      exact fun hgs => hgid (hgs ▸ hid)
  · by_cases hind : isIndirect main.pk mergedIds s = true
    · -- merged earlier into a server that is merged now
      have hmerged : mergedServer now main.pk mergedIds s =
          { s with mergedInto := some main.pk } := by
        simp [mergedServer, hid, hind]
      simp only [isIndirect, decide_eq_true_eq] at hind
      obtain ⟨hspk, id, _, hsid⟩ := hind
      simp only [hmerged] at hm ⊢
      cases hm
      obtain ⟨_, _, hdisabled, hnoGames⟩ := hinv s hs id hsid
      refine ⟨hspk.symm, htarget main hmain hnone hself, hdisabled, ?_⟩
      intro g' hg'
      obtain ⟨g, hg, hserver⟩ := hgame g' hg'
      rw [hserver]
      split
      · exact hspk.symm
      · exact hnoGames g hg
    · have hmerged : mergedServer now main.pk mergedIds s = s := by
        simp [mergedServer, hid, hind]
      simp only [hmerged] at hm ⊢
      have hspk := hne s hs (by simp [hm])
      obtain ⟨hmne, ⟨t, ht, rfl, htnone⟩, hdisabled, hnoGames⟩ := hinv s hs m hm
      have htid : t.pk ∉ mergedIds := by
        intro htid
        apply hind
        simp only [isIndirect, decide_eq_true_eq]
        exact ⟨hspk, t.pk, htid, hm⟩
      refine ⟨hmne, htarget t ht htnone htid, hdisabled, ?_⟩
      intro g' hg'
      obtain ⟨g, hg, hserver⟩ := hgame g' hg'
      rw [hserver]
      split
      · exact hspk.symm
      · exact hnoGames g hg

theorem invariant_mergeServers {now : Time} {mainId : ServerId} {mergedIds : List ServerId}
    {db : Database} (hinv : Invariant db) :
    Invariant ((Tasks.mergeServers now mainId mergedIds).run db).2 := by
  obtain ⟨_, key, hrun⟩ | ⟨message, hrun⟩ |
      ⟨main, hmain, rfl, hnone, hself, _, db', hrun, h⟩ :=
    Tasks.run_mergeServers now mainId mergedIds db
  · rwa [hrun]
  · rwa [hrun]
  · rw [hrun]
    exact invariant_of_mergeOutcome hinv hmain hnone hself h

theorem invariant_run {db₀ db : Database} {es : List Event}
    (hinit : ∀ s ∈ db₀.servers.rows, s.mergedInto = none) (hrun : Run system db₀ es db) :
    Invariant db := by
  refine hrun.invariant ?_ (invariant_of_unmerged hinit)
  intro db e hinv henabled
  cases e with
  | createServer ip port enabled => exact invariant_createServer hinv
  | saveGame game => exact invariant_saveGame hinv henabled
  | mergeServers now mainId mergedIds => exact invariant_mergeServers hinv

/-- Merges keep the servers a forest of height one, and each call is refused without a trace or
does all of its work. A main id that no server has is refused by the lookup of the task. -/
theorem forest_of_run {db₀ db : Database} {es : List Event}
    (hinit : ∀ s ∈ db₀.servers.rows, s.mergedInto = none) (hrun : Run system db₀ es db) :
    (∀ s ∈ db.servers.rows, ∀ m, s.mergedInto = some m → Merged db s m) ∧
    ∀ now mainId mergedIds, (∀ id ∈ mergedIds, ∃ s ∈ db.servers.rows, s.pk = id) →
      (∃ message, (Tasks.mergeServers now mainId mergedIds).run db =
        (.error (.raised (.mergeServersError message)), db)) ∨
      (∃ db', (Tasks.mergeServers now mainId mergedIds).run db = (.ok (), db') ∧
        MergeOutcome now mainId mergedIds db db') ∨
      (∀ s ∈ db.servers.rows, s.pk ≠ mainId) ∧
        ∃ key, (Tasks.mergeServers now mainId mergedIds).run db =
          (.error (.raised (.keyError key)), db) := by
  refine ⟨invariant_run hinit hrun, ?_⟩
  intro now mainId mergedIds hids
  obtain ⟨hmissing, key, hrun⟩ | ⟨message, hrun⟩ | ⟨_, _, _, _, _, _, db', hrun, h⟩ :=
    Tasks.run_mergeServers now mainId mergedIds db
  · right; right
    refine ⟨?_, key, hrun⟩
    intro s hs hpk
    apply hmissing
    intro id hid
    obtain rfl | hid := List.mem_cons.mp hid
    · exact ⟨s, hs, hpk⟩
    · exact hids id hid
  · left
    exact ⟨message, hrun⟩
  · right; left
    exact ⟨db', hrun, h⟩

def gameOf (server : ServerId) : Game := { sampleGame with server, dateFinished := 100 }

def mergesInSequence : List Event :=
  [.createServer 1 10480 true, .createServer 2 10480 true, .createServer 3 10480 true,
    .saveGame (gameOf 1), .mergeServers 200 2 [1], .mergeServers 300 3 [2]]

theorem forest_of_mergesInSequence :
    (mergesInSequence.foldl system.next Database.empty).servers.rows.map
        (fun s => (s.pk, s.mergedInto, s.mergedIntoAt, s.stats.gameCount)) =
      [(1, some 3, some 200, 0), (2, some 3, some 300, 0), (3, none, none, 1)] ∧
    ∀ s ∈ (mergesInSequence.foldl system.next Database.empty).servers.rows, ∀ m,
      s.mergedInto = some m →
        Merged (mergesInSequence.foldl system.next Database.empty) s m := by
  have hgame : system.enabled
      (([.createServer 1 10480 true, .createServer 2 10480 true, .createServer 3 10480 true] :
        List Event).foldl system.next Database.empty) (.saveGame (gameOf 1)) :=
    ⟨{ pk := 1, ip := 1, port := 10480 }, by decide, by decide⟩
  have hrun : Run system Database.empty mergesInSequence
      (mergesInSequence.foldl system.next Database.empty) :=
    .cons trivial (.cons trivial (.cons trivial (.cons hgame
      (.cons trivial (.cons trivial (.nil _))))))
  exact ⟨by decide, (forest_of_run (by simp [Database.empty]) hrun).1⟩

end MergeGraph

end Swat4Stats
