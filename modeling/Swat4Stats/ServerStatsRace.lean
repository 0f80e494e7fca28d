import Swat4Stats.AnnualStats
import Swat4Stats.MergeGraph
import Swat4Stats.ServerStatsMerge

/-!
# Merging server stats while servers are merged

The steps of `merge_unmerged_stats` with whole `merge_servers` tasks in between. The stats of a
merged server say which profiles its main server owes an update; a merge passes the debt on.
-/

namespace Swat4Stats

set_option autoImplicit false

open Tx Transition PlayerQuerySet StatsManager ProfileManager

namespace ServerStatsRace

open ServerManager ServerStatsManager

section Counts

def counts (row : PlayerRow) : Bool := qVersusModes row || qCoopModes row

/-- The aggregate passes over the rows that do not count. -/
def OnlyCounts (aggregate : List PlayerRow → Option ℚ) : Prop :=
  ∀ rows, aggregate (rows.filter counts) = aggregate rows

theorem filterMap_filter_counts {β : Type} {condition : PlayerRow → Bool} {column : PlayerRow → β}
    (h : ∀ row, condition row = true → counts row = true) (rows : List PlayerRow) :
    (rows.filter counts).filterMap (caseWhen condition column) =
      rows.filterMap (caseWhen condition column) := by
  induction rows with
  | nil => rfl
  | cons row rows ih =>
    cases hcounts : counts row with
    | true => simp only [List.filter_cons, hcounts, if_true, List.filterMap_cons, ih]
    | false =>
      have hnone : caseWhen condition column row = none := by
        rw [caseWhen, if_neg]
        intro hcondition
        rw [h row hcondition] at hcounts
        cases hcounts
      simp only [List.filter_cons, hcounts, Bool.false_eq_true, if_false, List.filterMap_cons,
        hnone, ih]

theorem counts_of_versus (row : PlayerRow) (h : qVersusModes row = true) : counts row = true := by
  simp [counts, h]

theorem counts_of_coop (row : PlayerRow) (h : qCoopModes row = true) : counts row = true := by
  simp [counts, h]

section Aggregates

variable {condition : PlayerRow → Bool} (h : ∀ row, condition row = true → counts row = true)

include h

theorem onlyCounts_sum (column : PlayerRow → ℤ) :
    OnlyCounts (PlayerQuerySet.sum (caseWhen condition column)) := by
  intro rows
  rw [PlayerQuerySet.sum, PlayerQuerySet.sum, filterMap_filter_counts h]

theorem onlyCounts_max (column : PlayerRow → ℤ) :
    OnlyCounts (PlayerQuerySet.max (caseWhen condition column)) := by
  intro rows
  rw [PlayerQuerySet.max, PlayerQuerySet.max, filterMap_filter_counts h]

theorem onlyCounts_countDistinct (column : PlayerRow → ℕ) :
    OnlyCounts (countDistinct (caseWhen condition column)) := by
  intro rows
  rw [countDistinct, countDistinct, filterMap_filter_counts h]

end Aggregates

theorem onlyCounts_ratio {numerator denominator : List PlayerRow → Option ℚ}
    (hn : OnlyCounts numerator) (hd : OnlyCounts denominator) (factor : ℚ) :
    OnlyCounts (ratio numerator denominator factor) := by
  intro rows
  rw [ratio, ratio, hn, hd]

theorem onlyCounts_serverAggregates : ∀ entry ∈ serverAggregates, OnlyCounts entry.2 := by
  have hsum : ∀ field, OnlyCounts (sumVersus field) := fun field =>
    onlyCounts_sum counts_of_versus _
  have hmax : ∀ field, OnlyCounts (maxVersus field) := fun field =>
    onlyCounts_max counts_of_versus _
  have hgames : OnlyCounts (countGames qVersusModes) := onlyCounts_countDistinct counts_of_versus _
  simp only [serverAggregates, List.forall_mem_cons]
  exact ⟨hsum _, hsum _, hgames, hsum _, hsum _, hsum _, onlyCounts_ratio (hsum _) (hsum _) _,
    onlyCounts_ratio (hsum _) hgames _, hmax _, hmax _, onlyCounts_ratio (hsum _) (hsum _) _,
    onlyCounts_sum counts_of_coop _, onlyCounts_countDistinct counts_of_coop _,
    onlyCounts_sum counts_of_coop _, by simp⟩

theorem aggregateStats_filter_counts (rows : List PlayerRow) :
    aggregateStats serverAggregates (rows.filter counts) =
      aggregateStats serverAggregates rows := by
  apply List.map_congr_left
  intro entry hentry
  rw [onlyCounts_serverAggregates entry hentry]

theorem positive_aggregateStats_nil (category : StatCategory) :
    positive (aggregateStats serverAggregates []) category = none := by
  have hnone : ∀ item ∈ aggregateStats serverAggregates [],
      (item.2.filter fun points => 0 < points) = none := by decide +kernel
  rw [positive]
  cases hlookup : (aggregateStats serverAggregates []).lookup category with
  | none => rfl
  | some value =>
    obtain ⟨l₁, l₂, hitems, _⟩ := List.lookup_eq_some_iff.mp hlookup
    exact hnone (category, value) (by rw [hitems]; simp)

theorem exists_positive_of_counts {rows : List PlayerRow} {row : PlayerRow} (hrow : row ∈ rows)
    (hcounts : counts row = true) :
    ∃ category, positive (aggregateStats serverAggregates rows) category ≠ none := by
  have hpos : ∀ (condition : PlayerRow → Bool), condition row = true →
      ((countGames condition rows).filter fun points => 0 < points) ≠ none := by
    intro condition hcondition
    have hmem :
        row.game.pk ∈ (rows.filterMap (caseWhen condition fun row => row.game.pk)).dedup := by
      rw [List.mem_dedup, List.mem_filterMap]
      exact ⟨row, hrow, by rw [caseWhen, if_pos hcondition]⟩
    have hlength := List.length_pos_of_mem hmem
    rw [countGames, countDistinct, Option.filter_some_pos (by simpa using hlength)]
    simp
  rw [counts, Bool.or_eq_true] at hcounts
  rcases hcounts with hversus | hcoop
  · exact ⟨.games, hpos qVersusModes hversus⟩
  · exact ⟨.coopGames, hpos qCoopModes hcoop⟩

theorem groupedPoints_forServer (server : ServerId) (rows : List PlayerRow)
    (category : StatCategory) :
    groupedPoints (aggregateStatsByServer (forServer server rows)) server category =
      positive (aggregateStats serverAggregates ((forServer server rows).filter counts))
        category := by
  rw [aggregateStats_filter_counts]
  have hserver : ∀ row ∈ forServer server rows, row.game.server = server := by
    intro row hrow
    simpa using (List.mem_filter.mp hrow).2
  have hall : (forServer server rows).filter (fun row => row.game.server = server) =
      forServer server rows :=
    List.filter_eq_self.mpr fun row hrow => by simpa using hserver row hrow
  cases hrows : forServer server rows with
  | nil => exact (positive_aggregateStats_nil category).symm
  | cons row rest =>
    rw [← hrows, groupedPoints, aggregateStatsByServer, aggregateStatsBy, lookup_map_self]
    · rw [hall]
      rfl
    · rw [List.mem_dedup, List.mem_map]
      have hmem : row ∈ forServer server rows := by simp [hrows]
      exact ⟨row, hmem, hserver row hmem⟩

end Counts

def countedRows (db : Database) (profile : ProfileId) (period : Time × Time) (server : ServerId) :
    List PlayerRow :=
  (forServer server (_getQualifiedPlayerQuerysetForProfile profile period db)).filter counts

theorem freshPoints_of_period {db : Database} {key : StatKey ServerId} {profile : Profile}
    {period : Time × Time} (hprofile : db.profiles.find? key.profile = some profile)
    (hperiod : _getAnnualPeriodForProfile profile key.year = some period) :
    freshPoints db key =
      positive (aggregateStats serverAggregates (countedRows db key.profile period key.group))
        key.category := by
  rw [freshPoints, hprofile]
  simp only [hperiod]
  exact groupedPoints_forServer _ _ _

theorem countedRows_eq_nil {db : Database} {key : StatKey ServerId} {profile : Profile}
    {period : Time × Time} (hprofile : db.profiles.find? key.profile = some profile)
    (hperiod : _getAnnualPeriodForProfile profile key.year = some period)
    (hnone : ∀ category, freshPoints db { key with category } = none) :
    countedRows db key.profile period key.group = [] := by
  rw [List.eq_nil_iff_forall_not_mem]
  intro row hrow
  obtain ⟨category, hpositive⟩ := exists_positive_of_counts hrow (List.mem_filter.mp hrow).2
  have hfresh := hnone category
  rw [@freshPoints_of_period db { key with category } _ _ hprofile hperiod] at hfresh
  exact hpositive hfresh

theorem freshPoints_eq_none {db : Database} {key : StatKey ServerId}
    (h : ∀ g ∈ db.games.rows, g.server = key.group →
      ¬ ((Calendar.statsPeriodForYear key.year).1 ≤ g.dateFinished ∧
        g.dateFinished ≤ (Calendar.statsPeriodForYear key.year).2)) :
    freshPoints db key = none := by
  cases hprofile : db.profiles.find? key.profile with
  | none => rw [freshPoints, hprofile]
  | some profile =>
    cases hperiod : _getAnnualPeriodForProfile profile key.year with
    | none =>
      rw [freshPoints, hprofile]
      simp only [hperiod]
    | some period =>
      have hyear : Calendar.statsPeriodForYear key.year = period := by
        rw [_getAnnualPeriodForProfile] at hperiod
        split at hperiod
        · cases hperiod
        · split at hperiod
          · cases hperiod
          · exact Option.some_inj.mp hperiod
      have hnil : countedRows db key.profile period key.group = [] := by
        rw [List.eq_nil_iff_forall_not_mem]
        intro row hrow
        obtain ⟨hrow, hserver⟩ := List.mem_filter.mp (List.mem_of_mem_filter hrow)
        obtain ⟨hrow, hdate⟩ := List.mem_filter.mp hrow
        obtain ⟨player, _, hgame⟩ :=
          List.mem_filterMap.mp (List.mem_of_mem_filter (List.mem_of_mem_filter hrow))
        obtain ⟨game, hfind, rfl⟩ := Option.map_eq_some_iff.mp hgame
        refine h game (Table.find?_eq_some_iff.mp hfind).1 (of_decide_eq_true hserver) ?_
        rw [hyear]
        exact of_decide_eq_true hdate
      rw [freshPoints_of_period hprofile hperiod, hnil, positive_aggregateStats_nil]

theorem freshPoints_of_noGames {db : Database} {key : StatKey ServerId}
    (h : ∀ g ∈ db.games.rows, g.server ≠ key.group) : freshPoints db key = none :=
  freshPoints_eq_none fun g hg hserver => absurd hserver (h g hg)

section Merge

variable {now : Time} {mainId : ServerId} {mergedIds : List ServerId} {db db' : Database}

def movedRow (mainId : ServerId) (mergedIds : List ServerId) (row : PlayerRow) : PlayerRow :=
  { row with
    game := if row.game.server ∈ mergedIds then { row.game with server := mainId } else row.game }

theorem all_of_mergeOutcome (h : MergeOutcome now mainId mergedIds db db') :
    all db' = (all db).map (movedRow mainId mergedIds) := by
  have hgames : db'.games = db.games.update (fun g => g.server ∈ mergedIds)
      (fun g => { g with server := mainId }) fun _ => rfl := by
    apply Table.ext
    rw [h.games, Table.rows_update]
    simp only [decide_eq_true_eq]
  have hplayers : db'.players = db.players := by rw [h.frame]
  rw [all, all, hplayers, hgames, List.map_filterMap]
  apply List.filterMap_congr
  intro player _
  rw [Table.find?_update, Option.map_map, Option.map_map]
  apply congrArg (Option.map · (db.games.find? player.game))
  funext game
  simp only [Function.comp_apply, movedRow, decide_eq_true_eq]

theorem qualified_of_mergeOutcome (h : MergeOutcome now mainId mergedIds db db')
    (profile : ProfileId) (period : Time × Time) :
    _getQualifiedPlayerQuerysetForProfile profile period db' =
      (_getQualifiedPlayerQuerysetForProfile profile period db).map
        (movedRow mainId mergedIds) := by
  have haliases : db'.aliases = db.aliases := by rw [h.frame]
  have hrow : ∀ row : PlayerRow, (movedRow mainId mergedIds row).player = row.player ∧
      (movedRow mainId mergedIds row).game.playerNum = row.game.playerNum ∧
      (movedRow mainId mergedIds row).game.dateFinished = row.game.dateFinished ∧
      qCoopModes (movedRow mainId mergedIds row) = qCoopModes row := by
    intro row
    rw [movedRow]
    split
    · exact ⟨rfl, rfl, rfl, rfl⟩
    · exact ⟨rfl, rfl, rfl, rfl⟩
  simp only [_getQualifiedPlayerQuerysetForProfile, forPeriod, withQualifiedGames, forProfile,
    all_of_mergeOutcome h, haliases, List.filter_map, Function.comp_def, hrow]

theorem counts_movedRow (row : PlayerRow) :
    counts (movedRow mainId mergedIds row) = counts row := by
  simp only [counts, qVersusModes, qCoopModes, movedRow]
  split
  · rfl
  · rfl

/-- A merge does not change the rows of the other servers, nor those of the main server unless it
moves a row that counts. -/
theorem countedRows_of_mergeOutcome (h : MergeOutcome now mainId mergedIds db db')
    {profile : ProfileId} {period : Time × Time} {server : ServerId} (hserver : server ∉ mergedIds)
    (hnone : server = mainId → ∀ id ∈ mergedIds, countedRows db profile period id = []) :
    countedRows db' profile period server = countedRows db profile period server := by
  have hmoved : ∀ row ∈ _getQualifiedPlayerQuerysetForProfile profile period db,
      counts row = true → row.game.server ∈ mergedIds → server ≠ mainId := by
    intro row hrow hcounts hmem hmain
    have hnil := hnone hmain _ hmem
    rw [List.eq_nil_iff_forall_not_mem] at hnil
    exact hnil row (List.mem_filter.mpr ⟨List.mem_filter.mpr ⟨hrow, by simp⟩, hcounts⟩)
  simp only [countedRows, qualified_of_mergeOutcome h, forServer, List.filter_filter]
  generalize _getQualifiedPlayerQuerysetForProfile profile period db = rows at hmoved
  induction rows with
  | nil => rfl
  | cons row rows ih =>
    have hrest := ih fun r hr => hmoved r (List.mem_cons_of_mem _ hr)
    have hrow := hmoved row List.mem_cons_self
    simp only [List.map_cons, List.filter_cons, counts_movedRow, hrest]
    cases hcounts : counts row with
    | false => simp
    | true =>
      by_cases hmem : row.game.server ∈ mergedIds
      · -- moved to the main server, which is another one
        have hmain : ¬ mainId = server := fun h => hrow hcounts hmem h.symm
        have hold : ¬ row.game.server = server := fun h => hserver (h ▸ hmem)
        simp [movedRow, hmem, hmain, hold]
      · have hsame : movedRow mainId mergedIds row = row := by
          rw [movedRow, if_neg hmem]
        rw [hsame]

theorem freshPoints_of_mergeOutcome (h : MergeOutcome now mainId mergedIds db db')
    {key : StatKey ServerId} (hgroup : key.group ∉ mergedIds)
    (hnone : key.group = mainId → ∀ id ∈ mergedIds, ∀ category,
      freshPoints db { key with category, group := id } = none) :
    freshPoints db' key = freshPoints db key := by
  have hprofiles : db'.profiles = db.profiles := by rw [h.frame]
  cases hprofile : db.profiles.find? key.profile with
  | none => rw [freshPoints, freshPoints, hprofiles, hprofile]
  | some profile =>
    cases hperiod : _getAnnualPeriodForProfile profile key.year with
    | none =>
      rw [freshPoints, freshPoints, hprofiles, hprofile]
      simp only [hperiod]
    | some period =>
      rw [freshPoints_of_period (hprofiles ▸ hprofile) hperiod,
        freshPoints_of_period hprofile hperiod, countedRows_of_mergeOutcome h hgroup]
      intro hmain id hid
      exact @countedRows_eq_nil db { key with group := id } _ _ hprofile hperiod
        fun category => hnone hmain id hid category

end Merge

/-- A run of the job may be cut off and started anew at any time. -/
inductive Event where
  | start
  | work (tick : Tick)
  | mergeServers (now : Time) (mainId : ServerId) (mergedIds : List ServerId)

def system : System State Event where
  enabled s
    | .work tick => tick.Admissible s
    | _ => True
  next s
    | .start => { s with job := .readServers }
    | .work tick => work tick s
    | .mergeServers now mainId mergedIds =>
      { s with db := ((Tasks.mergeServers now mainId mergedIds).run s.db).2 }

/-- No stats belong to a merged server, and those of the others are up to date. -/
structure Settled (db : Database) : Prop where
  merged : ∀ server ∈ db.servers.rows, server.mergedInto ≠ none →
    ∀ row ∈ db.serverStats.rows, row.group ≠ server.pk
  points : ∀ server ∈ db.servers.rows, server.mergedInto = none → ∀ key, key.group = server.pk →
    points? db.serverStats key = freshPoints db key

def merged : Job → List (ServerId × ServerId)
  | .readSummary merged | .recalculate merged _ _ | .rank merged _ | .updatePositions merged _ _ _
  | .delete merged => merged
  | .readServers | .finished | .aborted => []

/-- The job will still recalculate the stats of the profile and the year for the main server. -/
def Pending (mainId : ServerId) (affected : AnnualProfile) : Job → Prop
  | .readSummary _ => True
  | .recalculate _ pending _ => ∃ entry ∈ pending, entry.1 = mainId ∧ affected ∈ entry.2
  | _ => False

/-- A server is merged while the job is about to recalculate its stats only if it has stats for
every profile and year that it is to take over; and no aggregate of the main server loses its
positive value. -/
def Safe (s : State) : Event → Prop
  | .mergeServers now mainId mergedIds => ∀ db',
      (Tasks.mergeServers now mainId mergedIds).run s.db = (.ok (), db') →
        (∀ mergedId ∈ mergedIds, ∀ affected, Pending mergedId affected s.job →
          ∀ id, (merged s.job).lookup id = some mergedId → HasStats s.db.serverStats id affected →
            HasStats s.db.serverStats mergedId affected) ∧
        ∀ key, key.group = mainId → freshPoints s.db key ≠ none → freshPoints db' key ≠ none
  | _ => True

/-- If the job has read the server, then with this main server, and it is not done with it. -/
def Live (job : Job) (id mainId : ServerId) (affected : AnnualProfile) : Prop :=
  ∀ m, (merged job).lookup id = some m → m = mainId ∧ Pending mainId affected job

/-- A server whose stats make a job update those of the main server. -/
def Owed (s : State) (mainId : ServerId) (affected : AnnualProfile) : Prop :=
  ∃ server ∈ s.db.servers.rows, server.mergedInto = some mainId ∧
    hasUnmergedStats server = true ∧ HasStats s.db.serverStats server.pk affected ∧
    Live s.job server.pk mainId affected

structure Invariant (s : State) : Prop where
  graph : MergeGraph.Invariant s.db
  neverMerged : ∀ server ∈ s.db.servers.rows, server.mergedInto = none →
    server.mergedStatsAt = none
  read : ∀ id m, (merged s.job).lookup id = some m →
    ∃ server ∈ s.db.servers.rows, server.pk = id ∧ server.mergedInto ≠ none
  settled : ∀ server ∈ s.db.servers.rows, server.mergedInto ≠ none →
    hasUnmergedStats server = false → ∀ affected, ¬ HasStats s.db.serverStats server.pk affected
  positive : ∀ server ∈ s.db.servers.rows, server.mergedInto = none → ∀ key,
    key.group = server.pk → points? s.db.serverStats key ≠ none → freshPoints s.db key ≠ none
  owed : ∀ server ∈ s.db.servers.rows, server.mergedInto = none → ∀ key,
    key.group = server.pk → points? s.db.serverStats key ≠ freshPoints s.db key →
      Owed s server.pk (key.profile, key.year)

theorem hasStats_of_points {t : StatTable ServerId} {key : StatKey ServerId}
    (h : points? t key ≠ none) : HasStats t key.group (key.profile, key.year) :=
  ⟨key.category, h⟩

section Work

variable {s : State}

/-- A step that leaves all points as they are only has to account for the job. -/
theorem Invariant.of_points (hinv : Invariant s) {t : StatTable ServerId} {job : Job}
    (hpoints : ∀ key, points? t key = points? s.db.serverStats key)
    (hread : ∀ id m, (merged job).lookup id = some m →
      ∃ server ∈ s.db.servers.rows, server.pk = id ∧ server.mergedInto ≠ none)
    (hlive : ∀ server ∈ s.db.servers.rows, ∀ main ∈ s.db.servers.rows,
      server.mergedInto = some main.pk → main.mergedInto = none → ∀ affected,
        HasStats s.db.serverStats server.pk affected → Live s.job server.pk main.pk affected →
          Live job server.pk main.pk affected) :
    Invariant ⟨{ s.db with serverStats := t }, job⟩ := by
  have hstats : ∀ id affected, HasStats t id affected ↔ HasStats s.db.serverStats id affected :=
    fun id affected => hasStats_congr fun key _ => hpoints key
  refine ⟨MergeGraph.invariant_of_frame hinv.graph rfl rfl, hinv.neverMerged, hread, ?_, ?_, ?_⟩
  · intro server hserver hmerged hold affected hhas
    exact hinv.settled server hserver hmerged hold affected ((hstats _ _).mp hhas)
  · intro server hserver hnone key hgroup hkey
    rw [hpoints] at hkey
    exact hinv.positive server hserver hnone key hgroup hkey
  · intro server hserver hnone key hgroup hkey
    simp only [hpoints] at hkey
    obtain ⟨a, ha, hmerged, hunmerged, hhas, halive⟩ :=
      hinv.owed server hserver hnone key hgroup hkey
    exact ⟨a, ha, hmerged, hunmerged, (hstats _ _).mpr hhas,
      hlive a ha server hserver hmerged hnone _ hhas halive⟩

theorem invariant_readServers (hinv : Invariant s) (hjob : s.job = .readServers) (tick : Tick) :
    Invariant (work tick s) := by
  rw [work, hjob]
  dsimp only
  split
  · exact hinv.of_points (fun _ => rfl) (by simp [merged]) (by simp [Live, merged])
  · rename_i hne
    refine hinv.of_points (fun _ => rfl) ?_ ?_
    · intro id m hlookup
      obtain ⟨server, hserver, hpk, hm, _⟩ := mem_mergedServers.mp (mem_of_lookup hlookup)
      exact ⟨server, hserver, hpk, by simp [hm]⟩
    · intro server hserver main _ hmerged _ affected _ _ m hlookup
      obtain ⟨server', hserver', hpk, hm, _⟩ := mem_mergedServers.mp (mem_of_lookup hlookup)
      rw [s.db.servers.eq_of_key_eq hserver' hserver hpk] at hm
      exact ⟨Option.some_inj.mp (hm.symm.trans hmerged), trivial⟩

theorem invariant_readSummary (hinv : Invariant s) {pairs : List (ServerId × ServerId)}
    (hjob : s.job = .readSummary pairs) (tick : Tick) : Invariant (work tick s) := by
  have hread := hinv.read
  rw [hjob] at hread
  rw [work, hjob]
  refine hinv.of_points (fun _ => rfl) hread ?_
  intro server _ main _ _ _ affected hhas hlive m hlookup
  rw [hjob] at hlive
  obtain ⟨rfl, _⟩ := hlive m hlookup
  exact ⟨rfl, mem_affectedProfilesPerServer.mpr
    (mem_affectedItems.mpr ⟨server.pk, hlookup, hhas⟩)⟩

/-- With nothing left to recalculate, or while positions are updated, the servers that the job has
read owe nothing. -/
theorem invariant_of_notPending (hinv : Invariant s) {t : StatTable ServerId} {job : Job}
    (hpoints : ∀ key, points? t key = points? s.db.serverStats key)
    (hsame : merged job = merged s.job)
    (hdone : ∀ mainId affected, ¬ Pending mainId affected s.job) :
    Invariant ⟨{ s.db with serverStats := t }, job⟩ := by
  apply hinv.of_points hpoints (hsame ▸ hinv.read)
  intro server _ main _ _ _ affected _ hlive m hlookup
  rw [hsame] at hlookup
  exact absurd (hlive m hlookup).2 (hdone _ _)

/-- A recalculation does not touch the stats of a merged server, which has no games. -/
theorem points?_recalculated_of_merged (hinv : Invariant s) {mainServerId : ServerId}
    {order : List AnnualProfile} {t : StatTable ServerId}
    (ht : Recalculated mainServerId order s.db t) {server : Server}
    (hserver : server ∈ s.db.servers.rows) (hmerged : server.mergedInto ≠ none)
    {key : StatKey ServerId} (hgroup : key.group = server.pk) :
    points? t key = points? s.db.serverStats key := by
  obtain ⟨m, hm⟩ := Option.ne_none_iff_exists'.mp hmerged
  have hnone : freshPoints s.db key = none := by
    apply freshPoints_of_noGames
    rw [hgroup]
    exact (hinv.graph server hserver m hm).noGames
  rw [ht.points, hnone, Option.none_or, ite_self]

theorem invariant_recalculated (hinv : Invariant s) {pairs : List (ServerId × ServerId)}
    {entry : ServerId × List AnnualProfile} {pending : List (ServerId × List AnnualProfile)}
    {calls : List (RankCall ServerId)} (hjob : s.job = .recalculate pairs (entry :: pending) calls)
    {order : List AnnualProfile} (horder : order.Perm entry.2) {t : StatTable ServerId}
    (ht : Recalculated entry.1 order s.db t) :
    Invariant ⟨{ s.db with serverStats := t }, .recalculate pairs pending calls⟩ := by
  have hread := hinv.read
  rw [hjob] at hread
  have hstats : ∀ server ∈ s.db.servers.rows, server.mergedInto ≠ none → ∀ affected,
      (HasStats t server.pk affected ↔ HasStats s.db.serverStats server.pk affected) :=
    fun server hserver hmerged affected =>
      hasStats_congr fun key hgroup => points?_recalculated_of_merged hinv ht hserver hmerged hgroup
  refine ⟨MergeGraph.invariant_of_frame hinv.graph rfl rfl, hinv.neverMerged, hread, ?_, ?_, ?_⟩
  · intro server hserver hmerged hold affected hhas
    exact hinv.settled server hserver hmerged hold affected
      ((hstats server hserver hmerged affected).mp hhas)
  · intro server hserver hnone key hgroup hkey
    have hpositive := hinv.positive server hserver hnone key hgroup
    simp only [ht.points] at hkey
    split at hkey
    · intro hfresh
      have hfresh : freshPoints s.db key = none := hfresh
      rw [hfresh, Option.none_or] at hkey
      exact hpositive hkey hfresh
    · exact hpositive hkey
  · intro server hserver hnone key hgroup hkey
    change points? t key ≠ freshPoints s.db key at hkey
    have hnotDone : ¬ (key.group = entry.1 ∧ (key.profile, key.year) ∈ order) := by
      intro hdone
      rw [ht.points, if_pos hdone] at hkey
      cases hfresh : freshPoints s.db key with
      | some points => simp [hfresh] at hkey
      | none =>
        rw [hfresh, Option.none_or] at hkey
        exact hinv.positive server hserver hnone key hgroup hkey hfresh
    rw [ht.points, if_neg hnotDone] at hkey
    obtain ⟨a, ha, hmerged, hunmerged, hhas, hlive⟩ :=
      hinv.owed server hserver hnone key hgroup hkey
    refine ⟨a, ha, hmerged, hunmerged, (hstats a ha (by simp [hmerged]) _).mpr hhas, ?_⟩
    intro m hlookup
    rw [hjob] at hlive
    obtain ⟨rfl, e, he, hmain, hmem⟩ := hlive m hlookup
    refine ⟨rfl, e, ?_, hmain, hmem⟩
    rcases List.mem_cons.mp he with rfl | he
    · exact absurd ⟨hgroup.trans hmain.symm, horder.mem_iff.mpr hmem⟩ hnotDone
    · exact he

theorem invariant_delete (hinv : Invariant s) {pairs : List (ServerId × ServerId)}
    (hjob : s.job = .delete pairs) (tick : Tick) : Invariant (work tick s) := by
  rw [work, hjob]
  simp only [run_deleteMergedStatsForServers]
  set ids := pairs.map Prod.fst with hids
  have hmergedIds : ∀ server ∈ s.db.servers.rows, server.pk ∈ ids → server.mergedInto ≠ none := by
    intro server hserver hid
    obtain ⟨⟨id, m⟩, hpair, hpk⟩ := List.mem_map.mp hid
    obtain ⟨m', hlookup⟩ : ∃ m', pairs.lookup id = some m' := by
      rw [← Option.isSome_iff_exists, List.lookup_isSome_iff]
      exact ⟨_, hpair, by simp⟩
    have hread := hinv.read
    rw [hjob] at hread
    obtain ⟨server', hserver', hpk', hmerged⟩ := hread id m' hlookup
    rwa [s.db.servers.eq_of_key_eq hserver' hserver (hpk'.trans hpk)] at hmerged
  have hservers : ∀ server ∈ (markStatsMerged ids tick.now s.db.servers).rows,
      ∃ old ∈ s.db.servers.rows, server.pk = old.pk ∧ server.mergedInto = old.mergedInto ∧
        (old.pk ∉ ids → server = old) := by
    intro server hserver
    obtain ⟨old, hold, rfl⟩ := mem_markStatsMerged.mp hserver
    refine ⟨old, hold, ?_⟩
    split
    · rename_i hid
      exact ⟨rfl, rfl, fun hnot => absurd hid hnot⟩
    · exact ⟨rfl, rfl, fun _ => rfl⟩
  have hgraph : MergeGraph.Invariant
      { s.db with servers := markStatsMerged ids tick.now s.db.servers } :=
    MergeGraph.invariant_update (fun _ => rfl) (fun _ => rfl) hinv.graph
  refine ⟨MergeGraph.invariant_of_frame hgraph rfl rfl, ?_, by simp [merged], ?_, ?_, ?_⟩
  · intro server hserver hnone
    obtain ⟨old, hold, _, hinto, hsame⟩ := hservers server hserver
    rw [hsame fun hid => hmergedIds old hold hid (hinto ▸ hnone)] at hnone ⊢
    exact hinv.neverMerged old hold hnone
  · intro server hserver hmerged hsettled affected hhas
    obtain ⟨old, hold, hpk, _, hsame⟩ := hservers server hserver
    obtain ⟨hid, hhas⟩ := hasStats_deleteStats.mp hhas
    rw [hpk] at hid
    rw [hsame hid] at hmerged hsettled hhas
    exact hinv.settled old hold hmerged hsettled affected hhas
  · intro server hserver hnone key hgroup hkey
    obtain ⟨old, hold, hpk, hinto, _⟩ := hservers server hserver
    simp only [points?_deleteStats] at hkey
    split at hkey
    · exact absurd rfl hkey
    · exact hinv.positive old hold (hinto ▸ hnone) key (hgroup.trans hpk) hkey
  · intro server hserver hnone key hgroup hkey
    obtain ⟨old, hold, hpk, hinto, _⟩ := hservers server hserver
    have hid : key.group ∉ ids := fun hid =>
      hmergedIds old hold (hgroup.trans hpk ▸ hid) (hinto ▸ hnone)
    simp only [points?_deleteStats, if_neg hid] at hkey
    obtain ⟨a, ha, hmerged, hunmerged, hhas, hlive⟩ :=
      hinv.owed old hold (hinto ▸ hnone) key (hgroup.trans hpk) hkey
    rw [hjob] at hlive
    have haid : a.pk ∉ ids := by
      intro haid
      obtain ⟨⟨id, m⟩, hpair, hpk⟩ := List.mem_map.mp haid
      obtain ⟨m', hlookup⟩ : ∃ m', pairs.lookup a.pk = some m' := by
        rw [← Option.isSome_iff_exists, List.lookup_isSome_iff]
        exact ⟨_, hpair, by simpa using hpk.symm⟩
      exact (hlive m' hlookup).2
    exact ⟨a, mem_markStatsMerged.mpr ⟨a, ha, if_neg haid⟩, hpk ▸ hmerged, hunmerged,
      hasStats_deleteStats.mpr ⟨haid, hhas⟩, by simp [Live, merged]⟩

theorem invariant_work (hinv : Invariant s) {tick : Tick} (htick : tick.Admissible s) :
    Invariant (work tick s) := by
  obtain ⟨_, hadmissible⟩ := htick
  cases hjob : s.job with
  | readServers => exact invariant_readServers hinv hjob tick
  | readSummary pairs => exact invariant_readSummary hinv hjob tick
  | recalculate pairs pending calls =>
    cases pending with
    | nil =>
      rw [work, hjob]
      exact invariant_of_notPending hinv (fun _ => rfl) (by rw [hjob]; rfl)
        (by simp [hjob, Pending])
    | cons entry pending =>
      rw [hjob] at hadmissible
      rw [work, hjob]
      dsimp only
      rcases run_recalculateMergedStatsForServer entry.1 tick.order s.db with
        ⟨e, hrun, _⟩ | ⟨t, hrun, ht⟩
      · rw [hrun]
        exact hinv.of_points (fun _ => rfl) (by simp [merged]) (by simp [Live, merged])
      · rw [hrun]
        exact invariant_recalculated hinv hjob hadmissible ht
  | rank pairs calls =>
    cases calls with
    | nil =>
      rw [work, hjob]
      exact invariant_of_notPending hinv (fun _ => rfl) (by rw [hjob]; rfl)
        (by simp [hjob, Pending])
    | cons call calls =>
      rw [work, hjob]
      exact invariant_of_notPending hinv (fun _ => rfl) (by rw [hjob]; rfl)
        (by simp [hjob, Pending])
  | updatePositions pairs call positions calls =>
    cases positions with
    | nil =>
      rw [work, hjob]
      exact invariant_of_notPending hinv (fun _ => rfl) (by rw [hjob]; rfl)
        (by simp [hjob, Pending])
    | cons entry rest =>
      rw [work, hjob]
      exact invariant_of_notPending hinv (fun key => points?_updatePositions _ _ _ _ key)
        (by rw [hjob]; rfl) (by simp [hjob, Pending])
  | delete pairs => exact invariant_delete hinv hjob tick
  | finished => exact absurd hadmissible (by simp [hjob, Tick.Fits])
  | aborted => exact absurd hadmissible (by simp [hjob, Tick.Fits])

end Work

section Merge

variable {s : State} {now : Time} {main : Server} {mergedIds : List ServerId} {db' : Database}

theorem hasUnmergedStats_mergedServer {server : Server} {stats : GameStats}
    (hmerged : server.mergedInto ≠ none) (hid : server.pk ∉ mergedIds) :
    hasUnmergedStats { mergedServer now main.pk mergedIds server with stats } =
      hasUnmergedStats server := by
  obtain ⟨m, hm⟩ := Option.ne_none_iff_exists'.mp hmerged
  rw [mergedServer, if_neg hid]
  split
  · simp [hasUnmergedStats, hm]
  · rfl

theorem mergedInto_mergedServer_eq_none {server : Server} :
    (mergedServer now main.pk mergedIds server).mergedInto = none ↔
      server.mergedInto = none ∧ server.pk ∉ mergedIds := by
  rw [mergedServer]
  split
  · rename_i hid
    simp [hid]
  · rename_i hid
    split
    · rename_i hindirect
      obtain ⟨_, id, _, hm⟩ := of_decide_eq_true hindirect
      simp [hm]
    · simp [hid]

theorem hasUnmergedStats_of_mem {server : Server} {stats : GameStats} (hid : server.pk ∈ mergedIds)
    (hnever : server.mergedStatsAt = none) :
    hasUnmergedStats { mergedServer now main.pk mergedIds server with stats } = true := by
  rw [mergedServer, if_pos hid]
  simp [hasUnmergedStats, hnever]

/-- A merged server whose games count leaves a debt: its own stats, or the stats of the servers
that were merged into it. -/
theorem owed_of_taken (hinv : Invariant s) (hmain : main ∈ s.db.servers.rows)
    (hnone : main.mergedInto = none)
    (hall : ∀ server ∈ s.db.servers.rows, server.pk ∈ mergedIds → server.mergedInto = none)
    (hids : ∀ id ∈ mergedIds, ∃ server ∈ s.db.servers.rows, server.pk = id)
    (h : MergeOutcome now main.pk mergedIds s.db db')
    (htake : ∀ mergedId ∈ mergedIds, ∀ affected, Pending mergedId affected s.job →
      ∀ id, (merged s.job).lookup id = some mergedId → HasStats s.db.serverStats id affected →
        HasStats s.db.serverStats mergedId affected)
    {key : StatKey ServerId} {id : ServerId} (hid : id ∈ mergedIds) {category : StatCategory}
    (hfresh : freshPoints s.db { key with category, group := id } ≠ none) :
    Owed ⟨db', s.job⟩ main.pk (key.profile, key.year) := by
  have hserverStats : db'.serverStats = s.db.serverStats := by rw [h.frame]
  obtain ⟨server, hserver, rfl⟩ := hids id hid
  have hunmerged := hall server hserver hid
  by_cases hhas : HasStats s.db.serverStats server.pk (key.profile, key.year)
  · obtain ⟨stats, hfind, _⟩ := h.servers server hserver
    refine ⟨_, (Table.find?_eq_some_iff.mp hfind).1, ?_,
      hasUnmergedStats_of_mem hid (hinv.neverMerged server hserver hunmerged), ?_, ?_⟩
    · rw [mergedServer, if_pos hid]
    · change HasStats db'.serverStats (mergedServer now main.pk mergedIds server).pk _
      rwa [hserverStats, mergedServer_pk]
    · -- the job reads merged servers only
      intro m hlookup
      change
        (merged s.job).lookup (mergedServer now main.pk mergedIds server).pk = some m at hlookup
      rw [mergedServer_pk] at hlookup
      obtain ⟨server', hserver', hpk, hmerged⟩ := hinv.read _ m hlookup
      rw [s.db.servers.eq_of_key_eq hserver' hserver hpk] at hmerged
      exact absurd hunmerged hmerged
  · have hpoints : points? s.db.serverStats { key with category, group := server.pk } = none := by
      by_contra hpoints
      exact hhas (hasStats_of_points hpoints)
    obtain ⟨a, ha, hmerged, hunmergedStats, hahas, hlive⟩ := hinv.owed server hserver hunmerged
      { key with category, group := server.pk } rfl (by rw [hpoints]; exact hfresh.symm)
    have haid : a.pk ∉ mergedIds := fun haid => by
      rw [hall a ha haid] at hmerged
      cases hmerged
    have hindirect : isIndirect main.pk mergedIds a := by
      refine decide_eq_true ⟨?_, server.pk, hid, hmerged⟩
      intro hpk
      rw [s.db.servers.eq_of_key_eq ha hmain hpk, hnone] at hmerged
      cases hmerged
    obtain ⟨stats, hfind, _⟩ := h.servers a ha
    have hmem := (Table.find?_eq_some_iff.mp hfind).1
    have hkept : hasUnmergedStats { mergedServer now main.pk mergedIds a with stats } =
        hasUnmergedStats a := hasUnmergedStats_mergedServer (by simp [hmerged]) haid
    rw [mergedServer, if_neg haid, if_pos hindirect] at hmem hkept
    refine ⟨_, hmem, rfl, hkept.trans hunmergedStats, ?_, ?_⟩
    · change HasStats db'.serverStats a.pk _
      rwa [hserverStats]
    · intro m hlookup
      obtain ⟨rfl, hpending⟩ := hlive m hlookup
      exact absurd (htake _ hid _ hpending a.pk hlookup hahas) hhas

theorem invariant_of_merge (hinv : Invariant s) (hmain : main ∈ s.db.servers.rows)
    (hnone : main.mergedInto = none) (hself : main.pk ∉ mergedIds)
    (hall : ∀ server ∈ s.db.servers.rows, server.pk ∈ mergedIds → server.mergedInto = none)
    (hids : ∀ id ∈ mergedIds, ∃ server ∈ s.db.servers.rows, server.pk = id)
    (h : MergeOutcome now main.pk mergedIds s.db db')
    (htake : ∀ mergedId ∈ mergedIds, ∀ affected, Pending mergedId affected s.job →
      ∀ id, (merged s.job).lookup id = some mergedId → HasStats s.db.serverStats id affected →
        HasStats s.db.serverStats mergedId affected)
    (hpositive : ∀ key, key.group = main.pk → freshPoints s.db key ≠ none →
      freshPoints db' key ≠ none) :
    Invariant ⟨db', s.job⟩ := by
  have hserverStats : db'.serverStats = s.db.serverStats := by rw [h.frame]
  have hforward : ∀ server ∈ s.db.servers.rows, ∃ stats,
      { mergedServer now main.pk mergedIds server with stats } ∈ db'.servers.rows := by
    intro server hserver
    obtain ⟨stats, hfind, _⟩ := h.servers server hserver
    exact ⟨stats, (Table.find?_eq_some_iff.mp hfind).1⟩
  refine ⟨MergeGraph.invariant_of_mergeOutcome hinv.graph hmain hnone hself h, ?_, ?_, ?_, ?_, ?_⟩
  · intro server' hserver' hunmerged
    obtain ⟨server, hserver, stats, rfl⟩ := MergeGraph.mem_of_mergeOutcome h hserver'
    obtain ⟨hold, hid⟩ := mergedInto_mergedServer_eq_none.mp hunmerged
    rw [mergedServer_of_unmerged hold hid]
    exact hinv.neverMerged server hserver hold
  · intro id m hlookup
    obtain ⟨server, hserver, hpk, hmerged⟩ := hinv.read id m hlookup
    obtain ⟨stats, hmem⟩ := hforward server hserver
    refine ⟨_, hmem, mergedServer_pk.trans hpk, ?_⟩
    intro hunmerged
    exact hmerged (mergedInto_mergedServer_eq_none.mp hunmerged).1
  · intro server' hserver' hmerged hsettled affected hhas
    obtain ⟨server, hserver, stats, rfl⟩ := MergeGraph.mem_of_mergeOutcome h hserver'
    rw [hserverStats] at hhas
    by_cases hid : server.pk ∈ mergedIds
    · rw [hasUnmergedStats_of_mem hid (hinv.neverMerged server hserver (hall server hserver hid))]
        at hsettled
      cases hsettled
    · have hold : server.mergedInto ≠ none := fun hold =>
        hmerged (mergedInto_mergedServer_eq_none.mpr ⟨hold, hid⟩)
      rw [hasUnmergedStats_mergedServer hold hid] at hsettled
      have hhas : HasStats s.db.serverStats server.pk affected := mergedServer_pk ▸ hhas
      exact hinv.settled server hserver hold hsettled affected hhas
  · intro server' hserver' hunmerged key hgroup hkey
    obtain ⟨server, hserver, stats, rfl⟩ := MergeGraph.mem_of_mergeOutcome h hserver'
    obtain ⟨hold, hid⟩ := mergedInto_mergedServer_eq_none.mp hunmerged
    have hgroup : key.group = server.pk := hgroup.trans mergedServer_pk
    rw [hserverStats] at hkey
    have hfresh := hinv.positive server hserver hold key hgroup hkey
    by_cases hsame : key.group = main.pk
    · exact hpositive key hsame hfresh
    · rw [freshPoints_of_mergeOutcome h (hgroup ▸ hid) fun hmain => absurd hmain hsame]
      exact hfresh
  · intro server' hserver' hunmerged key hgroup hkey
    obtain ⟨server, hserver, stats, rfl⟩ := MergeGraph.mem_of_mergeOutcome h hserver'
    obtain ⟨hold, hid⟩ := mergedInto_mergedServer_eq_none.mp hunmerged
    have hgroup : key.group = server.pk := hgroup.trans mergedServer_pk
    change points? db'.serverStats key ≠ freshPoints db' key at hkey
    rw [hserverStats] at hkey
    change Owed ⟨db', s.job⟩ (mergedServer now main.pk mergedIds server).pk _
    rw [mergedServer_pk]
    obtain htaken | hnotTaken := Classical.em (server.pk = main.pk ∧ ∃ id ∈ mergedIds,
      ∃ category, freshPoints s.db { key with category, group := id } ≠ none)
    · obtain ⟨hsame, id, hid, category, hfresh⟩ := htaken
      rw [hsame]
      exact owed_of_taken hinv hmain hnone hall hids h htake hid hfresh
    · have hsame : freshPoints db' key = freshPoints s.db key := by
        apply freshPoints_of_mergeOutcome h (hgroup ▸ hid)
        intro hmainKey id hid category
        by_contra hfresh
        exact hnotTaken ⟨hgroup ▸ hmainKey, id, hid, category, hfresh⟩
      rw [hsame] at hkey
      obtain ⟨a, ha, hmerged, hunmergedStats, hhas, hlive⟩ :=
        hinv.owed server hserver hold key hgroup hkey
      have haid : a.pk ∉ mergedIds := fun haid => by
        rw [hall a ha haid] at hmerged
        cases hmerged
      have hindirect : ¬ isIndirect main.pk mergedIds a := by
        intro hindirect
        obtain ⟨_, id', hid', hm⟩ := of_decide_eq_true hindirect
        exact hid (Option.some_inj.mp (hmerged.symm.trans hm) ▸ hid')
      obtain ⟨stats, hmem⟩ := hforward a ha
      rw [mergedServer, if_neg haid, if_neg hindirect] at hmem
      exact ⟨_, hmem, hmerged, hunmergedStats, hserverStats ▸ hhas, hlive⟩

end Merge

theorem invariant_start {s : State} (hinv : Invariant s) :
    Invariant { s with job := .readServers } :=
  hinv.of_points (fun _ => rfl) (by simp [merged]) (by simp [Live, merged])

theorem invariant_mergeServers {s : State} {now : Time} {mainId : ServerId}
    {mergedIds : List ServerId} (hinv : Invariant s)
    (hsafe : Safe s (.mergeServers now mainId mergedIds)) :
    Invariant { s with db := ((Tasks.mergeServers now mainId mergedIds).run s.db).2 } := by
  obtain ⟨_, key, hrun⟩ | ⟨message, hrun⟩ |
      ⟨main, hmain, rfl, hnone, hself, hall, db', hrun, h⟩ :=
    Tasks.run_mergeServers now mainId mergedIds s.db
  · rwa [hrun]
  · rwa [hrun]
  · obtain ⟨htake, hpositive⟩ := hsafe db' hrun
    rw [hrun]
    exact invariant_of_merge hinv hmain hnone hself hall (Tasks.exists_of_mergeServers_ok hrun) h
      htake hpositive

theorem invariant_step (s : State) (e : Event) (hinv : Invariant s) (henabled : system.enabled s e)
    (hsafe : Safe s e) : Invariant (system.next s e) := by
  cases e with
  | start => exact invariant_start hinv
  | work tick => exact invariant_work hinv henabled
  | mergeServers now mainId mergedIds => exact invariant_mergeServers hinv hsafe

/-- No merges yet, and stats that are up to date. -/
structure Initial (s : State) : Prop where
  idle : s.job = .finished
  unmerged : ∀ server ∈ s.db.servers.rows, server.mergedInto = none ∧ server.mergedStatsAt = none
  fresh : ∀ server ∈ s.db.servers.rows, ∀ key, key.group = server.pk →
    points? s.db.serverStats key = freshPoints s.db key

theorem invariant_of_initial {s : State} (h : Initial s) : Invariant s := by
  refine ⟨MergeGraph.invariant_of_unmerged fun server hserver => (h.unmerged server hserver).1,
    fun server hserver _ => (h.unmerged server hserver).2, by simp [h.idle, merged], ?_, ?_, ?_⟩
  · intro server hserver hmerged
    exact absurd (h.unmerged server hserver).1 hmerged
  · intro server hserver _ key hgroup hkey
    rwa [← h.fresh server hserver key hgroup]
  · intro server hserver _ key hgroup hkey
    exact absurd (h.fresh server hserver key hgroup) hkey

/-- The job has read every merged server that has stats. -/
def Collected (s : State) : Prop :=
  ∀ server ∈ s.db.servers.rows, server.mergedInto ≠ none → ∀ affected,
    HasStats s.db.serverStats server.pk affected →
      ((merged s.job).lookup server.pk).isSome = true

theorem collected_readServers {s : State} (hinv : Invariant s) (hjob : s.job = .readServers)
    (tick : Tick) : Collected (work tick s) := by
  have hunmerged : ∀ server ∈ s.db.servers.rows, server.mergedInto ≠ none → ∀ affected,
      HasStats s.db.serverStats server.pk affected →
        ∃ m, (server.pk, m) ∈ mergedServers s.db := by
    intro server hserver hmerged affected hhas
    obtain ⟨m, hm⟩ := Option.ne_none_iff_exists'.mp hmerged
    cases hunmergedStats : hasUnmergedStats server with
    | false => exact absurd hhas (hinv.settled server hserver hmerged hunmergedStats affected)
    | true => exact ⟨m, mem_mergedServers.mpr ⟨server, hserver, rfl, hm, hunmergedStats⟩⟩
  rw [work, hjob]
  dsimp only
  split
  · rename_i hnil
    intro server hserver hmerged affected hhas
    obtain ⟨m, hm⟩ := hunmerged server hserver hmerged affected hhas
    rw [hnil] at hm
    cases hm
  · intro server hserver hmerged affected hhas
    obtain ⟨m, hm⟩ := hunmerged server hserver hmerged affected hhas
    exact List.lookup_isSome_iff.mpr ⟨_, hm, by simp⟩

theorem Collected.of_points {s : State} (h : Collected s) {t : StatTable ServerId} {job : Job}
    (hpoints : ∀ key, points? t key = points? s.db.serverStats key)
    (hsame : merged job = merged s.job) : Collected ⟨{ s.db with serverStats := t }, job⟩ := by
  intro server hserver hmerged affected hhas
  rw [hsame]
  exact h server hserver hmerged affected ((hasStats_congr fun key _ => hpoints key).mp hhas)

theorem collected_work {s : State} {tick : Tick} (hinv : Invariant s) (htick : tick.Admissible s)
    (h : s.job = .readServers ∨ s.job = .aborted ∨ Collected s) :
    (work tick s).job = .aborted ∨ Collected (work tick s) := by
  obtain ⟨_, hadmissible⟩ := htick
  rcases h with hjob | hjob | hcollected
  · exact .inr (collected_readServers hinv hjob tick)
  · exact absurd hadmissible (by simp [hjob, Tick.Fits])
  cases hjob : s.job with
  | readServers => exact .inr (collected_readServers hinv hjob tick)
  | readSummary pairs =>
    rw [work, hjob]
    exact .inr (hcollected.of_points (fun _ => rfl) (by rw [hjob]; rfl))
  | recalculate pairs pending calls =>
    cases pending with
    | nil =>
      rw [work, hjob]
      exact .inr (hcollected.of_points (fun _ => rfl) (by rw [hjob]; rfl))
    | cons entry pending =>
      rw [work, hjob]
      dsimp only
      rcases run_recalculateMergedStatsForServer entry.1 tick.order s.db with
        ⟨e, hrun, _⟩ | ⟨t, hrun, ht⟩
      · rw [hrun]
        exact .inl rfl
      · rw [hrun]
        right
        intro server hserver hmerged affected hhas
        have hread := hcollected server hserver hmerged affected ((hasStats_congr fun key hgroup =>
          points?_recalculated_of_merged hinv ht hserver hmerged hgroup).mp hhas)
        rwa [hjob] at hread
  | rank pairs calls =>
    cases calls with
    | nil =>
      rw [work, hjob]
      exact .inr (hcollected.of_points (fun _ => rfl) (by rw [hjob]; rfl))
    | cons call calls =>
      rw [work, hjob]
      exact .inr (hcollected.of_points (fun _ => rfl) (by rw [hjob]; rfl))
  | updatePositions pairs call positions calls =>
    cases positions with
    | nil =>
      rw [work, hjob]
      exact .inr (hcollected.of_points (fun _ => rfl) (by rw [hjob]; rfl))
    | cons entry rest =>
      rw [work, hjob]
      exact .inr (hcollected.of_points (fun key => points?_updatePositions _ _ _ _ key)
        (by rw [hjob]; rfl))
  | delete pairs =>
    rw [work, hjob]
    right
    intro server hserver hmerged affected hhas
    obtain ⟨old, hold, rfl⟩ := mem_markStatsMerged.mp hserver
    obtain ⟨hid, hhas⟩ := hasStats_deleteStats.mp hhas
    by_cases hmem : old.pk ∈ pairs.map Prod.fst
    · rw [if_pos hmem] at hid
      exact absurd hmem hid
    · rw [if_neg hmem] at hmerged hhas
      have hread := hcollected old hold hmerged affected hhas
      rw [hjob] at hread
      obtain ⟨pair, hpair, hpk⟩ := List.lookup_isSome_iff.mp hread
      exact absurd (List.mem_map.mpr ⟨pair, hpair, (beq_iff_eq.mp hpk).symm⟩) hmem
  | finished => exact absurd hadmissible (by simp [hjob, Tick.Fits])
  | aborted => exact absurd hadmissible (by simp [hjob, Tick.Fits])

theorem settled_of_invariant {s : State} (hinv : Invariant s) (hjob : s.job = .finished)
    (hcollected : Collected s) : Settled s.db := by
  have hnone : ∀ server ∈ s.db.servers.rows, server.mergedInto ≠ none → ∀ affected,
      ¬ HasStats s.db.serverStats server.pk affected := by
    intro server hserver hmerged affected hhas
    have hread := hcollected server hserver hmerged affected hhas
    rw [hjob] at hread
    cases hread
  refine ⟨?_, ?_⟩
  · intro server hserver hmerged row hrow hgroup
    exact hnone server hserver hmerged _ (hasStats_iff.mpr ⟨row, hrow, hgroup, rfl⟩)
  · intro server hserver hunmerged key hgroup
    by_contra hkey
    obtain ⟨a, ha, hmerged, _, hhas, _⟩ := hinv.owed server hserver hunmerged key hgroup hkey
    exact hnone a ha (by simp [hmerged]) _ hhas

/-- A run that ends with a complete job leaves the stats settled, if all of its merges are safe. -/
theorem settledStats_of_run {s₀ s : State} {es : List Event} {ticks : List Tick}
    (hinit : Initial s₀)
    (hrun : Run (system.restrict Safe) s₀ (es ++ .start :: ticks.map .work) s)
    (hfinished : s.job = .finished) : Settled s.db := by
  obtain ⟨u, hbefore, hafter⟩ := Run.append_iff.mp hrun
  obtain ⟨_, htail⟩ := Run.cons_iff.mp hafter
  have hinv := Run.invariant_restrict (M := system) invariant_step hbefore
    (invariant_of_initial hinit)
  have hstep : ∀ t e, e ∈ ticks.map Event.work →
      (Invariant t ∧ (t.job = .readServers ∨ t.job = .aborted ∨ Collected t)) →
        (system.restrict Safe).enabled t e →
          Invariant (system.next t e) ∧ ((system.next t e).job = .readServers ∨
            (system.next t e).job = .aborted ∨ Collected (system.next t e)) := by
    rintro t e he ⟨hinv, hcollected⟩ henabled
    obtain ⟨tick, _, rfl⟩ := List.mem_map.mp he
    exact ⟨invariant_work hinv henabled.1, .inr (collected_work hinv henabled.1 hcollected)⟩
  obtain ⟨hinv, hjob | hjob | hcollected⟩ :=
    htail.invariant_of_mem hstep ⟨invariant_start hinv, .inl rfl⟩
  · rw [hfinished] at hjob
    cases hjob
  · rw [hfinished] at hjob
    cases hjob
  · exact settled_of_invariant hinv hfinished hcollected

def sampleServer (pk : ServerId) : Server where
  pk
  ip := pk
  port := 10480

def sampleProfile : Profile where
  pk := 1
  name := none
  firstSeenAt := some (Calendar.yearStart 2024)
  lastSeenAt := some (Calendar.yearStart 2024)

/-- Three servers, and a game of the profile on the first one. -/
def sampleGames : Database :=
  AnnualStats.addGame AnnualStats.newYearGame [(AnnualStats.samplePlayer 10, [])]
    { AnnualStats.sampleDatabase with
      servers := ((Table.empty.create sampleServer fun _ => rfl).create sampleServer
        fun _ => rfl).create sampleServer fun _ => rfl
      profiles := Table.empty.create (fun pk => { sampleProfile with pk }) fun _ => rfl }

/-- The stats of the only profile and year that has any are stored. -/
def sampleState : State where
  db := ((updateAnnualServerStatsForProfile sampleProfile (sampleServer 1) 2024).run
    sampleGames).2
  job := .finished

theorem initial_sampleState : Initial sampleState := by
  obtain ⟨t, hrun, hpoints, _⟩ := run_updateAnnualServerStatsForProfile sampleProfile
    (sampleServer 1) 2024 sampleGames (by decide +kernel)
  have hdb : sampleState.db = { sampleGames with serverStats := t } := congrArg Prod.snd hrun
  have hgames : ∀ g ∈ sampleGames.games.rows, g.server = 1 ∧ 0 < g.dateFinished ∧
      Calendar.yearOf g.dateFinished = 2024 := by decide +kernel
  have hprofiles : ∀ profile ∈ sampleGames.profiles.rows, profile.pk = 1 := by decide +kernel
  refine ⟨rfl, ?_, ?_⟩
  · rw [hdb]
    change ∀ server ∈ sampleGames.servers.rows, _
    decide +kernel
  · intro server _ key _
    have hfresh : freshPoints sampleState.db key = freshPoints sampleGames key := by
      rw [hdb]
      rfl
    have hempty : points? sampleGames.serverStats key = none := rfl
    rw [hfresh, hdb]
    apply (hpoints key).trans
    rw [hempty, Option.or_none]
    split
    · rfl
    · rename_i hother
      by_contra hne
      apply hother
      have hgame : ∃ g ∈ sampleGames.games.rows, g.server = key.group ∧
          ((Calendar.statsPeriodForYear key.year).1 ≤ g.dateFinished ∧
            g.dateFinished ≤ (Calendar.statsPeriodForYear key.year).2) := by
        by_contra hnoGame
        refine hne (freshPoints_eq_none fun g hg hserver hperiod => ?_).symm
        exact hnoGame ⟨g, hg, hserver, hperiod⟩
      obtain ⟨g, hg, hserver, hperiod⟩ := hgame
      obtain ⟨hone, hpos, hyear⟩ := hgames g hg
      refine ⟨hserver.symm.trans hone, ?_⟩
      rw [← hyear, Calendar.yearOf_of_mem_period hpos hperiod]
      have hprofile : key.profile = 1 := by
        by_contra hprofile
        have hfind : sampleGames.profiles.find? key.profile = none :=
          Table.find?_eq_none_iff.mpr fun x hx hpk => hprofile (hpk.symm.trans (hprofiles x hx))
        rw [freshPoints, hfind] at hne
        exact hne rfl
      rw [hprofile]
      rfl

theorem run_of_ticks {s t : State} {ticks : List Tick} (h : Run jobSystem s ticks t) :
    Run (system.restrict Safe) s (ticks.map .work) t := by
  induction h with
  | nil s => exact .nil s
  | cons henabled _ ih => exact .cons ⟨henabled, trivial⟩ ih

/-- The first server is merged into the second one, and the job is started. -/
def firstMerge : State := [.mergeServers 100 2 [1], .start].foldl system.next sampleState

theorem safe_firstMerge : Safe sampleState (.mergeServers 100 2 [1]) := by
  intro db' _
  refine ⟨fun _ _ _ hpending => absurd hpending id, fun key hgroup hfresh => ?_⟩
  refine absurd (freshPoints_of_noGames ?_) hfresh
  rw [hgroup]
  decide +kernel

def completed (now : Time) (s : State) : State := (ticksInOrder now 40 s).foldl jobSystem.next s

theorem settledStats_of_firstMerge :
    points? (completed 101 firstMerge).db.serverStats ⟨2024, .score, 1, 2⟩ = some 10 ∧
    Settled (completed 101 firstMerge).db := by
  have hadmits : jobSystem.Admits firstMerge (ticksInOrder 101 40 firstMerge) := by
    decide +kernel
  have hrun : Run (system.restrict Safe) sampleState
      ([.mergeServers 100 2 [1]] ++ .start :: (ticksInOrder 101 40 firstMerge).map .work)
      (completed 101 firstMerge) :=
    .cons ⟨trivial, safe_firstMerge⟩ (.cons ⟨trivial, trivial⟩
      (run_of_ticks (Run.of_admits hadmits)))
  have hfinished : (completed 101 firstMerge).job.isFinished = true := by decide +kernel
  exact ⟨by decide +kernel,
    settledStats_of_run initial_sampleState hrun (Job.isFinished_iff.mp hfinished)⟩

/-- The second server is merged into the third one when the job has made its two reads. -/
def secondMerge : State :=
  system.next ((ticksInOrder 101 2 firstMerge).foldl jobSystem.next firstMerge)
    (.mergeServers 102 3 [2])

def restarted : State := { completed 103 secondMerge with job := .readServers }

/-- The stats of the player of the first server are deleted, although nothing has been stored for
the third server, which has the game. -/
theorem secondMerge_loses_player :
    ∃ (es : List Event) (ticks : List Tick) (s : State), Initial sampleState ∧
      (∀ player ∈ sampleState.db.players.rows, 0 < player.stats .score) ∧
      Run system sampleState (es ++ .start :: ticks.map .work) s ∧ s.job = .finished ∧
      ¬ Settled s.db := by
  have hreads : jobSystem.Admits firstMerge (ticksInOrder 101 2 firstMerge) := by decide +kernel
  have hrest : jobSystem.Admits secondMerge (ticksInOrder 103 40 secondMerge) := by decide +kernel
  have hagain : jobSystem.Admits restarted (ticksInOrder 104 40 restarted) := by decide +kernel
  have hfirst : Run system sampleState [.mergeServers 100 2 [1], .start] firstMerge :=
    .cons trivial (.cons trivial (.nil _))
  have hsecond : Run system ((ticksInOrder 101 2 firstMerge).foldl jobSystem.next firstMerge)
      [.mergeServers 102 3 [2]] secondMerge := .cons trivial (.nil _)
  have hrace := ((hfirst.append (run_of_ticks (Run.of_admits hreads)).of_restrict).append
    hsecond).append (run_of_ticks (Run.of_admits hrest)).of_restrict
  have hlast : Run system (completed 103 secondMerge)
      (.start :: (ticksInOrder 104 40 restarted).map .work) (completed 104 restarted) :=
    .cons trivial (run_of_ticks (Run.of_admits hagain)).of_restrict
  have hrun := hrace.append hlast
  have hfinished : (completed 104 restarted).job.isFinished = true := by decide +kernel
  refine ⟨_, _, _, initial_sampleState, by decide +kernel, hrun,
    Job.isFinished_iff.mp hfinished, ?_⟩
  intro hsettled
  have hlost : ∃ server ∈ (completed 104 restarted).db.servers.rows, server.mergedInto = none ∧
      server.pk = 3 ∧ points? (completed 104 restarted).db.serverStats ⟨2024, .score, 1, 3⟩ ≠
        freshPoints (completed 104 restarted).db ⟨2024, .score, 1, 3⟩ := by decide +kernel
  obtain ⟨server, hserver, hnone, hpk, hpoints⟩ := hlost
  exact hpoints (hsettled.points server hserver hnone _ hpk.symm)

end ServerStatsRace

end Swat4Stats
