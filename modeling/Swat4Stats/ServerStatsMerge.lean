import Swat4Stats.ProfileStats
import Swat4Stats.Library.Transition
import Mathlib.Data.List.Sort

/-!
# Merging server stats

`ServerStatsManager.merge_unmerged_stats` as the steps between which other transactions may commit
or the worker may be cut off: the two reads, one transaction for each main server, the reads and
the transactions of the ranking, and the transaction that marks the merged servers and deletes
their rows. The replica shows the committed state.
-/

namespace Swat4Stats

set_option autoImplicit false

open Tx Transition PlayerQuerySet StatsManager ProfileManager

namespace ServerStatsManager

def hasUnmergedStats (s : Server) : Bool :=
  s.mergedInto.isSome &&
    match s.mergedStatsAt, s.mergedIntoAt with
    | none, _ => true
    | some mergedStatsAt, some mergedIntoAt => mergedStatsAt < mergedIntoAt
    | some _, none => false

/-- `merged_servers`: each server with unmerged stats and the server it was merged into. -/
def mergedServers (db : Database) : List (ServerId × ServerId) :=
  (db.servers.rows.filter hasUnmergedStats).filterMap fun s =>
    s.mergedInto.map fun mainId => (s.pk, mainId)

structure StatsSummary where
  server : ServerId
  profile : ProfileId
  year : ℕ
  deriving DecidableEq, Repr

/-- The order of the query. -/
def StatsSummary.le (a b : StatsSummary) : Prop :=
  a.server < b.server ∨ a.server = b.server ∧
    (a.profile < b.profile ∨ a.profile = b.profile ∧ a.year ≤ b.year)

instance : DecidableRel StatsSummary.le :=
  fun _ _ => inferInstanceAs (Decidable (_ ∨ _ ∧ (_ ∨ _ ∧ _)))

def unmergedStatsSummary (merged : List (ServerId × ServerId)) (db : Database) :
    List StatsSummary :=
  let rows := db.serverStats.rows.filter fun row => row.group ∈ merged.map Prod.fst
  (rows.map fun row => ⟨row.group, row.profile, row.year⟩).dedup.insertionSort StatsSummary.le

/-- A profile and a year. -/
abbrev AnnualProfile := ProfileId × ℕ

/-- The main server of each item of the summary. -/
def affectedItems (merged : List (ServerId × ServerId)) (summary : List StatsSummary) :
    List (ServerId × AnnualProfile) :=
  summary.filterMap fun item =>
    (merged.lookup item.server).map fun mainId => (mainId, item.profile, item.year)

def affectedProfilesPerServer (items : List (ServerId × AnnualProfile)) :
    List (ServerId × List AnnualProfile) :=
  (items.map Prod.fst).eraseDups.map fun mainId =>
    (mainId, ((items.filter fun item => item.1 = mainId).map Prod.snd).eraseDups)

def affectedServersPerYear (items : List (ServerId × AnnualProfile)) :
    List (ℕ × List ServerId) :=
  ((items.map fun item => item.2.2).eraseDups.insertionSort (· ≤ ·)).map fun year =>
    (year, ((items.filter fun item => item.2.2 = year).map Prod.fst).eraseDups)

def recalculateProfile (profiles : Table Profile Profile.pk) (mainServer : Server)
    (affected : AnnualProfile) : DbTx Unit :=
  match profiles.find? affected.1 with
  | some profile => updateAnnualServerStatsForProfile profile mainServer affected.2
  | none => raise (.keyError (toString affected.1))

def _recalculateMergedStatsForServer (mainServerId : ServerId)
    (affectedProfiles : List AnnualProfile) : DbTx Unit := atomic do
  let mainServer ← read fun db => db.servers.find? mainServerId
  let profiles ← read fun db => db.profiles
  match mainServer with
  | some mainServer => forEach affectedProfiles (recalculateProfile profiles mainServer)
  | none => raise .objectDoesNotExist

def markStatsMerged (mergedServerIds : List ServerId) (now : Time)
    (servers : Table Server Server.pk) : Table Server Server.pk :=
  servers.update (fun s => s.pk ∈ mergedServerIds) (fun s => { s with mergedStatsAt := some now })
    fun _ => rfl

def deleteStats (mergedServerIds : List ServerId) (t : StatTable ServerId) : StatTable ServerId :=
  t.delete fun row => row.group ∈ mergedServerIds

def _deleteMergedStatsForServers (mergedServerIds : List ServerId) (now : Time) : DbTx Unit :=
  atomic do
    write fun db => { db with servers := markStatsMerged mergedServerIds now db.servers }
    write fun db => { db with serverStats := deleteStats mergedServerIds db.serverStats }

/-- `TRACKER_MIN_TIME` -/
def minTime : ℚ := 10 * 60 * 60

/-- `TRACKER_MIN_GAMES` -/
def minGames : ℚ := 100

/-- `TRACKER_MIN_KILLS` -/
def minKills : ℚ := 500

/-- The settings that qualify a profile for the ratios. -/
structure Thresholds where
  minTime : ℚ
  minGames : ℚ
  minKills : ℚ

def settings : Thresholds := ⟨minTime, minGames, minKills⟩

/-- The calls of `update_per_server_positions_for_year` with `server__in` as its filter, where the
settings are a parameter. -/
def updatePositionsForYear (thresholds : Thresholds) (year : ℕ) (servers : List ServerId) :
    List (RankCall ServerId) :=
  let call (cats : StatCategory → Bool) (qualify : List (StatCategory × ℚ)) : RankCall ServerId :=
    { year, cats, qualify, filters := (· ∈ servers), refGroup := (· = ·) }
  [call (· ∈ [.spmRatio]) [(.time, thresholds.minTime)],
    call (· ∈ [.sprRatio]) [(.games, thresholds.minGames)],
    call (· ∈ [.kdRatio]) [(.kills, thresholds.minKills)],
    call (· ∉ [.spmRatio, .sprRatio, .kdRatio]) []]

def updatePerServerPositionsForYear (year : ℕ) (servers : List ServerId) :
    List (RankCall ServerId) :=
  updatePositionsForYear settings year servers

/-- Where a run of `merge_unmerged_stats` stands. -/
inductive Job where
  | readServers
  | readSummary (merged : List (ServerId × ServerId))
  | recalculate (merged : List (ServerId × ServerId))
    (pending : List (ServerId × List AnnualProfile)) (calls : List (RankCall ServerId))
  | rank (merged : List (ServerId × ServerId)) (calls : List (RankCall ServerId))
  | updatePositions (merged : List (ServerId × ServerId)) (call : RankCall ServerId)
    (positions : List (StatCategory × List (ℕ × ℕ))) (calls : List (RankCall ServerId))
  | delete (merged : List (ServerId × ServerId))
  | finished
  | aborted

def Job.isFinished : Job → Bool
  | .finished => true
  | _ => false

theorem Job.isFinished_iff {job : Job} : job.isFinished = true ↔ job = .finished := by
  cases job <;> simp [Job.isFinished]

structure State where
  db : Database
  job : Job

/-- What one step is given: the clock, the order in which a set is walked through, and the order
in which the ranked rows of the categories come. -/
structure Tick where
  now : Time
  order : List AnnualProfile := []
  positions : List (StatCategory × List (ℕ × ℕ)) := []

def Tick.Fits (tick : Tick) (t : StatTable ServerId) : Job → Prop
  | .recalculate _ ((_, affectedProfiles) :: _) _ => tick.order.Perm affectedProfiles
  | .rank _ (call :: _) => tick.positions.Perm (positionsPerCat call t)
  | .finished | .aborted => False
  | _ => True

/-- The clock is not behind the recorded merge times. -/
def Tick.Admissible (tick : Tick) (s : State) : Prop :=
  (∀ server ∈ s.db.servers.rows, ∀ mergedIntoAt ∈ server.mergedIntoAt, mergedIntoAt ≤ tick.now) ∧
    tick.Fits s.db.serverStats s.job

def work (tick : Tick) (s : State) : State :=
  match s.job with
  | .readServers =>
    match mergedServers s.db with
    | [] => { s with job := .finished }
    | merged => { s with job := .readSummary merged }
  | .readSummary merged =>
    let items := affectedItems merged (unmergedStatsSummary merged s.db)
    { s with
      job := .recalculate merged (affectedProfilesPerServer items)
        ((affectedServersPerYear items).flatMap fun entry =>
          updatePerServerPositionsForYear entry.1 entry.2) }
  | .recalculate merged [] calls => { s with job := .rank merged calls }
  | .recalculate merged ((mainServerId, _) :: pending) calls =>
    match (_recalculateMergedStatsForServer mainServerId tick.order).run s.db with
    | (.ok _, db) => ⟨db, .recalculate merged pending calls⟩
    | (.error _, db) => ⟨db, .aborted⟩
  | .rank merged [] => { s with job := .delete merged }
  | .rank merged (call :: calls) =>
    { s with job := .updatePositions merged call tick.positions calls }
  | .updatePositions merged _ [] calls => { s with job := .rank merged calls }
  | .updatePositions merged call ((category, positions) :: rest) calls =>
    { db := { s.db with
        serverStats := StatsManager.updatePositions call category positions s.db.serverStats }
      job := .updatePositions merged call rest calls }
  | .delete merged =>
    ⟨((_deleteMergedStatsForServers (merged.map Prod.fst) tick.now).run s.db).2, .finished⟩
  | .finished | .aborted => s

/-- The job alone, when nothing else changes the data. -/
def jobSystem : System State Tick where
  enabled s tick := tick.Admissible s
  next s tick := work tick s

/-- The tick that takes every set and every result in the order at hand. -/
def Tick.inOrder (now : Time) (s : State) : Tick where
  now
  order :=
    match s.job with
    | .recalculate _ ((_, affectedProfiles) :: _) _ => affectedProfiles
    | _ => []
  positions :=
    match s.job with
    | .rank _ (call :: _) => positionsPerCat call s.db.serverStats
    | _ => []

def ticksInOrder (now : Time) : ℕ → State → List Tick
  | 0, _ => []
  | steps + 1, s =>
    match s.job with
    | .finished | .aborted => []
    | _ => Tick.inOrder now s :: ticksInOrder now steps (work (Tick.inOrder now s) s)

instance (tick : Tick) (t : StatTable ServerId) : ∀ job, Decidable (tick.Fits t job)
  | .recalculate _ (_ :: _) _ => inferInstanceAs (Decidable (tick.order.Perm _))
  | .rank _ (_ :: _) => inferInstanceAs (Decidable (tick.positions.Perm _))
  | .finished | .aborted => inferInstanceAs (Decidable False)
  | .readServers | .readSummary _ | .recalculate _ [] _ | .rank _ [] | .updatePositions _ _ _ _
  | .delete _ => inferInstanceAs (Decidable True)

instance (tick : Tick) (s : State) : Decidable (tick.Admissible s) :=
  inferInstanceAs (Decidable (_ ∧ _))

instance (s : State) (tick : Tick) : Decidable (jobSystem.enabled s tick) :=
  inferInstanceAs (Decidable (tick.Admissible s))

section Reads

variable {db : Database} {merged : List (ServerId × ServerId)} {id mainId : ServerId}

theorem mem_mergedServers :
    (id, mainId) ∈ mergedServers db ↔
      ∃ s ∈ db.servers.rows,
        s.pk = id ∧ s.mergedInto = some mainId ∧ hasUnmergedStats s = true := by
  simp only [mergedServers, List.mem_filterMap, List.mem_filter, Option.map_eq_some_iff,
    Prod.mk.injEq]
  constructor
  · rintro ⟨s, ⟨hs, hunmerged⟩, m, hm, rfl, rfl⟩
    exact ⟨s, hs, rfl, hm, hunmerged⟩
  · rintro ⟨s, hs, rfl, hm, hunmerged⟩
    exact ⟨s, ⟨hs, hunmerged⟩, mainId, hm, rfl, rfl⟩

theorem mem_of_lookup {β : Type} {l : List (ServerId × β)} {b : β} (h : l.lookup id = some b) :
    (id, b) ∈ l := by
  obtain ⟨l₁, l₂, rfl, _⟩ := List.lookup_eq_some_iff.mp h
  simp

theorem mergedServers_eq_nil_iff :
    mergedServers db = [] ↔ ∀ s ∈ db.servers.rows, hasUnmergedStats s = false := by
  rw [List.eq_nil_iff_forall_not_mem]
  constructor
  · intro hnil s hs
    cases hunmerged : hasUnmergedStats s with
    | false => rfl
    | true =>
      have hsome : s.mergedInto.isSome = true := by
        rw [hasUnmergedStats, Bool.and_eq_true] at hunmerged
        exact hunmerged.1
      obtain ⟨m, hm⟩ := Option.isSome_iff_exists.mp hsome
      exact absurd (mem_mergedServers.mpr ⟨s, hs, rfl, hm, hunmerged⟩) (hnil _)
  · rintro hnone ⟨id, mainId⟩ hmem
    obtain ⟨s, hs, _, _, hunmerged⟩ := mem_mergedServers.mp hmem
    rw [hnone s hs] at hunmerged
    cases hunmerged

def HasStats (t : StatTable ServerId) (server : ServerId) (affected : AnnualProfile) : Prop :=
  ∃ category, points? t ⟨affected.2, category, affected.1, server⟩ ≠ none

theorem hasStats_iff {t : StatTable ServerId} {server : ServerId} {affected : AnnualProfile} :
    HasStats t server affected ↔
      ∃ row ∈ t.rows, row.group = server ∧ (row.profile, row.year) = affected := by
  constructor
  · rintro ⟨category, hpoints⟩
    obtain ⟨points, hsome⟩ := Option.ne_none_iff_exists'.mp hpoints
    obtain ⟨row, hrow, _⟩ := Option.map_eq_some_iff.mp hsome
    obtain ⟨hmem, hkey⟩ := UniqueTable.get?_eq_some_iff.mp hrow
    obtain ⟨profile, year⟩ := affected
    cases hkey
    exact ⟨row, hmem, rfl, rfl⟩
  · rintro ⟨row, hmem, rfl, rfl⟩
    refine ⟨row.category, ?_⟩
    have hget : t.get? ⟨row.year, row.category, row.profile, row.group⟩ = some row :=
      UniqueTable.get?_of_mem hmem
    simp [points?, hget]

theorem hasStats_congr {t t' : StatTable ServerId} {affected : AnnualProfile}
    (h : ∀ key, key.group = id → points? t' key = points? t key) :
    HasStats t' id affected ↔ HasStats t id affected := by
  simp only [HasStats]
  constructor
  · rintro ⟨category, hpoints⟩
    exact ⟨category, by rwa [← h _ rfl]⟩
  · rintro ⟨category, hpoints⟩
    exact ⟨category, by rwa [h _ rfl]⟩

/-- The profile and the year have stats on a server that was read as merged into `mainId`. -/
def Affected (merged : List (ServerId × ServerId)) (t : StatTable ServerId) (mainId : ServerId)
    (affected : AnnualProfile) : Prop :=
  ∃ id, merged.lookup id = some mainId ∧ HasStats t id affected

theorem mem_unmergedStatsSummary {item : StatsSummary} :
    item ∈ unmergedStatsSummary merged db ↔ item.server ∈ merged.map Prod.fst ∧
      HasStats db.serverStats item.server (item.profile, item.year) := by
  simp only [unmergedStatsSummary, List.mem_insertionSort, List.mem_dedup, hasStats_iff,
    List.mem_map, List.mem_filter, decide_eq_true_eq, Prod.mk.injEq]
  constructor
  · rintro ⟨row, ⟨hrow, hserver⟩, rfl⟩
    exact ⟨hserver, row, hrow, rfl, rfl, rfl⟩
  · rintro ⟨hserver, row, hrow, hgroup, hprofile, hyear⟩
    refine ⟨row, ⟨hrow, hgroup ▸ hserver⟩, ?_⟩
    rw [hgroup, hprofile, hyear]

theorem mem_affectedItems {affected : AnnualProfile} :
    (mainId, affected) ∈ affectedItems merged (unmergedStatsSummary merged db) ↔
      Affected merged db.serverStats mainId affected := by
  simp only [affectedItems, List.mem_filterMap, Option.map_eq_some_iff, mem_unmergedStatsSummary,
    Affected]
  constructor
  · rintro ⟨⟨server, profile, year⟩, ⟨_, hstats⟩, m, hlookup, hitem⟩
    cases hitem
    exact ⟨server, hlookup, hstats⟩
  · rintro ⟨server, hlookup, hstats⟩
    refine ⟨⟨server, affected.1, affected.2⟩, ⟨?_, hstats⟩, mainId, hlookup, rfl⟩
    exact List.mem_map_of_mem (mem_of_lookup hlookup)

section Grouping

variable {items : List (ServerId × AnnualProfile)} {affected : AnnualProfile}

theorem mem_affectedProfilesPerServer :
    (∃ entry ∈ affectedProfilesPerServer items, entry.1 = mainId ∧ affected ∈ entry.2) ↔
      (mainId, affected) ∈ items := by
  simp only [affectedProfilesPerServer, List.mem_map, List.mem_eraseDups]
  constructor
  · rintro ⟨_, ⟨m, _, rfl⟩, rfl, hmem⟩
    obtain ⟨item, hitem, rfl⟩ := List.mem_map.mp (List.mem_eraseDups.mp hmem)
    obtain ⟨hitem, hmain⟩ := List.mem_filter.mp hitem
    rw [← of_decide_eq_true hmain]
    exact hitem
  · intro hmem
    refine ⟨_, ⟨mainId, ⟨_, hmem, rfl⟩, rfl⟩, rfl, List.mem_eraseDups.mpr ?_⟩
    exact List.mem_map_of_mem (f := Prod.snd) (List.mem_filter.mpr ⟨hmem, by simp⟩)

theorem mem_affectedServersPerYear {year : ℕ} {servers : List ServerId}
    (h : (year, servers) ∈ affectedServersPerYear items) (server : ServerId) :
    server ∈ servers ↔ ∃ profile, (server, profile, year) ∈ items := by
  obtain ⟨y, _, hentry⟩ := List.mem_map.mp h
  cases hentry
  rw [List.mem_eraseDups, List.mem_map]
  constructor
  · rintro ⟨⟨m, profile, y'⟩, hitem, rfl⟩
    obtain ⟨hmem, hyear⟩ := List.mem_filter.mp hitem
    obtain rfl : y' = year := of_decide_eq_true hyear
    exact ⟨profile, hmem⟩
  · rintro ⟨profile, hitem⟩
    exact ⟨_, List.mem_filter.mpr ⟨hitem, by simp⟩, rfl⟩

theorem eq_of_mem_affectedServersPerYear {entry entry' : ℕ × List ServerId}
    (h : entry ∈ affectedServersPerYear items) (h' : entry' ∈ affectedServersPerYear items)
    (hyear : entry.1 = entry'.1) : entry = entry' := by
  obtain ⟨y, _, rfl⟩ := List.mem_map.mp h
  obtain ⟨y', _, rfl⟩ := List.mem_map.mp h'
  cases hyear
  rfl

end Grouping

end Reads

/-- The positive aggregate that an update of the server stats would store now. -/
def freshPoints (db : Database) (key : StatKey ServerId) : Option ℚ :=
  match db.profiles.find? key.profile with
  | some profile =>
    match _getAnnualPeriodForProfile profile key.year with
    | some period =>
      groupedPoints (aggregateStatsByServer (forServer key.group
        (_getQualifiedPlayerQuerysetForProfile key.profile period db))) key.group key.category
    | none => none
  | none => none

section Transactions

variable {mainServerId : ServerId}

theorem groupedPoints_forServer_of_ne {server group : ServerId} (hne : group ≠ server)
    (rows : List PlayerRow) (category : StatCategory) :
    groupedPoints (aggregateStatsByServer (forServer server rows)) group category = none := by
  have hlookup : (aggregateStatsByServer (forServer server rows)).lookup group = none := by
    rw [List.lookup_eq_none_iff]
    intro entry hentry
    obtain ⟨key, hkey, rfl⟩ := List.mem_map.mp hentry
    obtain ⟨row, hrow, rfl⟩ := List.mem_map.mp (List.mem_dedup.mp hkey)
    have hserver : row.game.server = server := by simpa using (List.mem_filter.mp hrow).2
    simpa [hserver] using hne
  rw [groupedPoints, hlookup]
  rfl

theorem run_updateAnnualServerStatsForProfile (profile : Profile) (server : Server) (year : ℕ)
    (db : Database) (hprofile : db.profiles.find? profile.pk = some profile) :
    ∃ t, (updateAnnualServerStatsForProfile profile server year).run db =
        (.ok (), { db with serverStats := t }) ∧
      (∀ key, points? t key =
        if key.group = server.pk ∧ (key.profile, key.year) = (profile.pk, year) then
          (freshPoints db key).or (points? db.serverStats key)
        else points? db.serverStats key) ∧
      ∀ key, position? t key = position? db.serverStats key := by
  rw [updateAnnualServerStatsForProfile]
  cases hperiod : _getAnnualPeriodForProfile profile year with
  | none =>
    refine ⟨db.serverStats, rfl, fun key => ?_, fun key => rfl⟩
    split
    · rename_i hkey
      obtain ⟨_, hkey⟩ := hkey
      obtain ⟨hpk, hyear⟩ := Prod.mk.inj hkey
      rw [freshPoints, hpk, hyear, hprofile]
      simp only [hperiod, Option.none_or]
    · rfl
  | some period =>
    refine ⟨_, rfl, fun key => ?_, fun key => position?_saveGroupedStats _ _ _ _ _⟩
    obtain ⟨hgroups, hitems⟩ := nodup_aggregateStatsBy nodup_serverAggregates
      (fun row : PlayerRow => row.game.server) (forServer server.pk
        (_getQualifiedPlayerQuerysetForProfile profile.pk period db))
    refine (points?_saveGroupedStats hgroups hitems _ _ _ _).trans ?_
    obtain ⟨keyYear, category, keyProfile, group⟩ := key
    obtain rfl | hne := eq_or_ne group server.pk
    · simp only [Prod.mk.injEq, true_and]
      split
      · rename_i hkey
        obtain ⟨rfl, rfl⟩ := hkey
        simp only [freshPoints, hprofile, hperiod]
        rfl
      · rfl
    · rw [if_neg fun h : group = server.pk ∧ _ => hne h.1]
      split
      · exact (congrArg (Option.or · _) (groupedPoints_forServer_of_ne hne _ _)).trans
          Option.none_or
      · rfl

theorem or_or_self (a b : Option ℚ) : a.or (a.or b) = a.or b := by
  cases a with
  | none => rfl
  | some points => rfl

/-- The points after a recalculation of the main server. -/
structure Recalculated (mainServerId : ServerId) (order : List AnnualProfile) (db : Database)
    (t : StatTable ServerId) : Prop where
  points : ∀ key, points? t key =
    if key.group = mainServerId ∧ (key.profile, key.year) ∈ order then
      (freshPoints db key).or (points? db.serverStats key)
    else points? db.serverStats key
  positions : ∀ key, position? t key = position? db.serverStats key

theorem recalculated_cons {db : Database} {order : List AnnualProfile} {affected : AnnualProfile}
    {t t' : StatTable ServerId} (h : Recalculated mainServerId [affected] db t)
    (h' : Recalculated mainServerId order { db with serverStats := t } t') :
    Recalculated mainServerId (affected :: order) db t' := by
  refine ⟨fun key => ?_, fun key => (h'.positions key).trans (h.positions key)⟩
  have hfresh : freshPoints { db with serverStats := t } key = freshPoints db key := rfl
  rw [h'.points key, hfresh, h.points key]
  simp only [List.mem_cons, List.not_mem_nil, or_false]
  by_cases hgroup : key.group = mainServerId
  · by_cases hhead : (key.profile, key.year) = affected
    · simp only [hgroup, hhead, true_and, true_or, if_true, or_or_self, ite_self]
    · simp only [hgroup, hhead, true_and, false_or, if_false]
  · simp only [hgroup, false_and, if_false]

theorem run_recalculateProfiles (mainServer : Server) (order : List AnnualProfile)
    (db : Database) :
    (∃ e t, (forEach order (recalculateProfile db.profiles mainServer)).run db =
      (.error e, { db with serverStats := t }) ∧
        ∃ affected ∈ order, db.profiles.find? affected.1 = none) ∨
    ∃ t, (forEach order (recalculateProfile db.profiles mainServer)).run db =
      (.ok (), { db with serverStats := t }) ∧ Recalculated mainServer.pk order db t := by
  induction order generalizing db with
  | nil => exact .inr ⟨db.serverStats, rfl, fun key => by simp, fun key => rfl⟩
  | cons affected order ih =>
    rw [run_forEach_cons, recalculateProfile]
    cases hfind : db.profiles.find? affected.1 with
    | none => exact .inl ⟨_, db.serverStats, rfl, affected, by simp, hfind⟩
    | some profile =>
      obtain ⟨_, hpk⟩ := Table.find?_eq_some_iff.mp hfind
      obtain ⟨t, hrun, hpoints, hpositions⟩ := run_updateAnnualServerStatsForProfile profile
        mainServer affected.2 db (by rw [hpk, hfind])
      have hhead : Recalculated mainServer.pk [affected] db t := by
        refine ⟨fun key => (hpoints key).trans ?_, hpositions⟩
        rw [hpk]
        simp only [List.mem_singleton, Prod.mk.eta]
      simp only [hrun]
      rcases ih { db with serverStats := t } with ⟨e, t', hrest, a, ha, hnone⟩ | ⟨t', hrest, htail⟩
      · exact .inl ⟨e, t', hrest, a, List.mem_cons_of_mem _ ha, hnone⟩
      · exact .inr ⟨t', hrest, recalculated_cons hhead htail⟩

/-- The transaction of a main server: it raises if the server or a profile is missing, and is
rolled back then. -/
theorem run_recalculateMergedStatsForServer (mainServerId : ServerId)
    (order : List AnnualProfile) (db : Database) :
    (∃ e, (_recalculateMergedStatsForServer mainServerId order).run db = (.error e, db) ∧
      (db.servers.find? mainServerId = none ∨
        ∃ affected ∈ order, db.profiles.find? affected.1 = none)) ∨
    ∃ t, (_recalculateMergedStatsForServer mainServerId order).run db =
      (.ok (), { db with serverStats := t }) ∧ Recalculated mainServerId order db t := by
  rw [_recalculateMergedStatsForServer, run_atomic]
  simp only [run_bind, run_read]
  cases hfind : db.servers.find? mainServerId with
  | none => exact .inl ⟨_, rfl, .inl rfl⟩
  | some mainServer =>
    obtain ⟨_, rfl⟩ := Table.find?_eq_some_iff.mp hfind
    rcases run_recalculateProfiles mainServer order db with
      ⟨e, t, hrun, hmissing⟩ | ⟨t, hrun, hrecalculated⟩
    · exact .inl ⟨e, by simp only [hrun], .inr hmissing⟩
    · exact .inr ⟨t, by simp only [hrun], hrecalculated⟩

theorem run_deleteMergedStatsForServers (ids : List ServerId) (now : Time) (db : Database) :
    (_deleteMergedStatsForServers ids now).run db = (.ok (), { db with
      servers := markStatsMerged ids now db.servers
      serverStats := deleteStats ids db.serverStats }) := rfl

theorem mem_markStatsMerged {ids : List ServerId} {now : Time} {servers : Table Server Server.pk}
    {s : Server} :
    s ∈ (markStatsMerged ids now servers).rows ↔ ∃ old ∈ servers.rows,
      (if old.pk ∈ ids then { old with mergedStatsAt := some now } else old) = s := by
  simp [markStatsMerged]

theorem get?_deleteStats (ids : List ServerId) (t : StatTable ServerId) (key : StatKey ServerId) :
    (deleteStats ids t).get? key = if key.group ∈ ids then none else t.get? key := by
  rw [deleteStats, UniqueTable.get?_delete]
  cases hget : t.get? key with
  | none => simp
  | some row =>
    obtain ⟨_, rfl⟩ := UniqueTable.get?_eq_some_iff.mp hget
    by_cases hgroup : row.group ∈ ids
    · simp [Option.filter, Stat.key, hgroup]
    · simp [Option.filter, Stat.key, hgroup]

theorem points?_deleteStats (ids : List ServerId) (t : StatTable ServerId)
    (key : StatKey ServerId) :
    points? (deleteStats ids t) key = if key.group ∈ ids then none else points? t key := by
  rw [points?, get?_deleteStats]
  split
  · rfl
  · rfl

theorem position?_deleteStats (ids : List ServerId) (t : StatTable ServerId)
    (key : StatKey ServerId) :
    position? (deleteStats ids t) key = if key.group ∈ ids then none else position? t key := by
  rw [position?, get?_deleteStats]
  split
  · rfl
  · rfl

theorem hasStats_deleteStats {ids : List ServerId} {t : StatTable ServerId} {id : ServerId}
    {affected : AnnualProfile} :
    HasStats (deleteStats ids t) id affected ↔ id ∉ ids ∧ HasStats t id affected := by
  simp only [HasStats, points?_deleteStats]
  by_cases hid : id ∈ ids
  · simp [hid]
  · simp [hid]

end Transactions

end ServerStatsManager

end Swat4Stats
