import Swat4Stats.Ranking
import Swat4Stats.ServerStatsRestart

/-!
# Positions on other servers

`update_per_server_positions_for_year` restricts what is ranked to the given servers, and the
clearing of old positions to nothing but a year and a category. The positions of other servers
survive exactly where nothing of theirs is cleared; the same holds of `merge_unmerged_stats`.
-/

namespace Swat4Stats

set_option autoImplicit false

open Transition Retry StatsManager ServerStatsManager ServerStatsRestart

namespace PositionFrame

/-- The row with these unique columns is out of view of the calls. -/
def Elsewhere (year : ℕ) (servers : List ServerId) (key : StatKey ServerId) : Prop :=
  key.group ∉ servers ∨ key.year ≠ year

section Calls

variable {thresholds : Thresholds} {year : ℕ} {servers : List ServerId}
  {call : RankCall ServerId} {calls : List (RankCall ServerId)} {key : StatKey ServerId}
  {t t' : StatTable ServerId}

theorem not_ranked_elsewhere (hcall : call ∈ updatePositionsForYear thresholds year servers)
    (hkey : Elsewhere year servers key) (points : StatKey ServerId → Option ℚ) :
    ¬ Ranked points call key := by
  obtain ⟨hyear, hfilters, _⟩ := mem_updatePositionsForYear hcall
  intro hranked
  obtain hgroup | hkeyYear := hkey
  · have hfiltered := hranked.filters
    rw [hfilters, decide_eq_true_eq] at hfiltered
    exact hgroup hfiltered
  · exact hkeyYear (hranked.year.trans hyear)

/-- The keyword arguments of the calls. -/
def positionArgs (thresholds : Thresholds) (year : ℕ) (servers : List ServerId) :
    List (RankArgs ServerId) :=
  [{ year, cats := some [.spmRatio], qualify := some [(.time, thresholds.minTime)],
      filters := (· ∈ servers) },
    { year, cats := some [.sprRatio], qualify := some [(.games, thresholds.minGames)],
      filters := (· ∈ servers) },
    { year, cats := some [.kdRatio], qualify := some [(.kills, thresholds.minKills)],
      filters := (· ∈ servers) },
    { year, excludeCats := some [.spmRatio, .sprRatio, .kdRatio], filters := (· ∈ servers) }]

/-- The calls do what the queries of the server stats do with these arguments. -/
theorem ranks_iff_of_mem (hcall : call ∈ updatePositionsForYear thresholds year servers) :
    ∃ args ∈ positionArgs thresholds year servers,
      ∀ t t', Ranks call t t' ↔ Reranks serverStatsModel args t t' := by
  have hcalls : updatePositionsForYear thresholds year servers =
      (positionArgs thresholds year servers).map (RankArgs.call serverStatsModel) := rfl
  rw [hcalls] at hcall
  obtain ⟨args, hargs, rfl⟩ := List.mem_map.mp hcall
  exact ⟨args, hargs, ranks_iff_reranks args⟩

/-- A row that is not ranked keeps its position, or loses it to a call that clears it. -/
theorem position?_eq_iff (h : RanksAll calls t t')
    (hkey : ∀ call ∈ calls, ¬ Ranked (points? t) call key) :
    position? t' key = position? t key ↔
      ∀ call ∈ calls, Clears (points? t) call key → position? t key = none := by
  rw [position?_of_ranksAll h hkey]
  split
  · rename_i hcleared
    obtain ⟨call, hcall, hclears⟩ := hcleared
    constructor
    · intro hnone _ _ _
      exact hnone.symm
    · intro hnone
      exact (hnone call hcall hclears).symm
  · rename_i hkept
    constructor
    · intro _ call hcall hclears
      exact absurd ⟨call, hcall, hclears⟩ hkept
    · intro _
      rfl

theorem positions_elsewhere_iff
    (h : RanksAll (updatePositionsForYear thresholds year servers) t t') :
    (∀ key, Elsewhere year servers key → position? t' key = position? t key) ↔
      ∀ key, Elsewhere year servers key →
        ∀ call ∈ updatePositionsForYear thresholds year servers,
          Clears (points? t) call key → position? t key = none := by
  have hiff : ∀ key, Elsewhere year servers key →
      (position? t' key = position? t key ↔
        ∀ call ∈ updatePositionsForYear thresholds year servers,
          Clears (points? t) call key → position? t key = none) := fun key hkey =>
    position?_eq_iff h fun call hcall => not_ranked_elsewhere hcall hkey _
  constructor
  · intro hkept key hkey
    exact (hiff key hkey).mp (hkept key hkey)
  · intro hcleared key hkey
    exact (hiff key hkey).mpr (hcleared key hkey)

end Calls

/-- The job alone, with no assumption about the clock. -/
def mergeSystem : System State Tick where
  enabled s tick := tick.Fits s.db.serverStats s.job
  next s tick := work tick s

instance (s : State) (tick : Tick) : Decidable (mergeSystem.enabled s tick) :=
  inferInstanceAs (Decidable (tick.Fits _ _))

/-- The server is neither merged nor the target of a merge that is being settled. -/
def Bystander (origin : Database) (server : ServerId) : Prop :=
  server ∉ (mergedServers origin).map Prod.fst ∧ server ∉ (mergedServers origin).map Prod.snd

/-- The calls were made one after the other once all points were recalculated. -/
def CallsDone (origin : Database) (calls : List (RankCall ServerId)) (t : StatTable ServerId) :
    Prop :=
  ∃ start, points? start = recalculatedPoints origin ∧
    position? start = position? origin.serverStats ∧ RanksAll calls start t

/-- Where a run from `origin` may stand, and which calls of `rank` it has made. -/
inductive Stage (origin : Database) : State → Prop
  | reading {job : Job} (hjob : job = .readServers ∨ job = .readSummary (mergedServers origin)) :
      Stage origin ⟨origin, job⟩
  | recalculate {t : StatTable ServerId} {pending : List (ServerId × List AnnualProfile)}
      (hitems : ∀ entry ∈ pending, ∀ affected ∈ entry.2, (entry.1, affected) ∈ readItems origin)
      (hpoints : PointsUnderway origin
        (fun key => ∃ entry ∈ pending, entry.1 = key.group ∧ (key.profile, key.year) ∈ entry.2) t)
      (hpositions : position? t = position? origin.serverStats) :
      Stage origin ⟨{ origin with serverStats := t },
        .recalculate (mergedServers origin) pending (rankCalls (readItems origin))⟩
  | rank {t : StatTable ServerId} {done calls : List (RankCall ServerId)}
      (hcalls : done ++ calls = rankCalls (readItems origin)) (hdone : CallsDone origin done t) :
      Stage origin ⟨{ origin with serverStats := t }, .rank (mergedServers origin) calls⟩
  | updatePositions {t : StatTable ServerId} {call : RankCall ServerId}
      {stored positions : List (StatCategory × List (ℕ × ℕ))}
      {done calls : List (RankCall ServerId)}
      (hcalls : done ++ call :: calls = rankCalls (readItems origin))
      (hdone : CallsDone origin done t)
      (hread : (stored ++ positions).Perm (positionsPerCat call t)) :
      Stage origin ⟨{ origin with serverStats := storePositions call stored t },
        .updatePositions (mergedServers origin) call positions calls⟩
  | delete {t : StatTable ServerId} (hdone : CallsDone origin (rankCalls (readItems origin)) t) :
      Stage origin ⟨{ origin with serverStats := t }, .delete (mergedServers origin)⟩
  | finished {db : Database} {t : StatTable ServerId}
      (hdone : CallsDone origin (rankCalls (readItems origin)) t)
      (hpositions : ∀ key, key.group ∉ (mergedServers origin).map Prod.fst →
        position? db.serverStats key = position? t key) :
      Stage origin ⟨db, .finished⟩
  | aborted {t : StatTable ServerId} (hpositions : position? t = position? origin.serverStats) :
      Stage origin ⟨{ origin with serverStats := t }, .aborted⟩

section Stages

variable {origin : Database} {t : StatTable ServerId} {tick : Tick}

theorem callsDone_of_nil (hnil : mergedServers origin = []) :
    CallsDone origin (rankCalls (readItems origin)) origin.serverStats := by
  have hitems := readItems_eq_nil hnil
  refine ⟨origin.serverStats, funext fun key => ?_, rfl, ?_⟩
  · exact (store_of_not_mem (by simp [hitems]) _).symm
  · rw [hitems]
    exact .nil _

theorem stage_readSummary :
    Stage origin (work tick ⟨origin, .readSummary (mergedServers origin)⟩) := by
  refine .recalculate (t := origin.serverStats) ?_ ?_ rfl
  · intro entry hentry affected haffected
    exact mem_affectedProfilesPerServer.mp ⟨entry, hentry, rfl, haffected⟩
  · have hself : PointsUnderway origin (fun _ => True) origin.serverStats :=
      underway_self fun _ => trivial
    refine hself.of_neutral fun key hnot => store_of_not_mem fun hmem => hnot ?_
    exact mem_affectedProfilesPerServer.mpr hmem

theorem stage_recalculate {entry : ServerId × List AnnualProfile}
    {pending : List (ServerId × List AnnualProfile)}
    (hitems : ∀ e ∈ entry :: pending, ∀ affected ∈ e.2, (e.1, affected) ∈ readItems origin)
    (hpoints : PointsUnderway origin (fun key => ∃ e ∈ entry :: pending,
      e.1 = key.group ∧ (key.profile, key.year) ∈ e.2) t)
    (hpositions : position? t = position? origin.serverStats)
    (horder : tick.order.Perm entry.2) :
    Stage origin (work tick ⟨{ origin with serverStats := t },
      .recalculate (mergedServers origin) (entry :: pending) (rankCalls (readItems origin))⟩) := by
  rw [work]
  dsimp only
  obtain ⟨e, hrun, _⟩ | ⟨t', hrun, hrecalculated⟩ :=
    run_recalculateMergedStatsForServer entry.1 tick.order { origin with serverStats := t }
  · rw [hrun]
    exact .aborted hpositions
  · rw [hrun]
    refine .recalculate (fun e he => hitems e (List.mem_cons_of_mem _ he))
      (hpoints.recalculate (hitems entry List.mem_cons_self) horder hrecalculated) ?_
    exact (funext hrecalculated.positions).trans hpositions

theorem stage_work {s : State} (h : Stage origin s) (hfits : tick.Fits s.db.serverStats s.job) :
    Stage origin (work tick s) := by
  cases h with
  | reading hjob =>
    obtain rfl | rfl := hjob
    · rw [work]
      dsimp only
      split
      · rename_i hnil
        exact .finished (callsDone_of_nil hnil) fun _ _ => rfl
      · exact .reading (.inr rfl)
    · exact stage_readSummary
  | @recalculate t pending hitems hpoints hpositions =>
    cases pending with
    | nil =>
      have hnone : PointsUnderway origin (fun _ => False) t := hpoints.mono (by simp)
      have hrecalculated : points? t = recalculatedPoints origin :=
        funext fun key => hnone.eq_updated id
      exact .rank (List.nil_append _) ⟨t, hrecalculated, hpositions, .nil t⟩
    | cons entry pending => exact stage_recalculate hitems hpoints hpositions hfits
  | @rank t done calls hcalls hdone =>
    cases calls with
    | nil =>
      rw [List.append_nil] at hcalls
      exact .delete (hcalls ▸ hdone)
    | cons call calls =>
      exact @Stage.updatePositions origin t call [] tick.positions done calls hcalls hdone hfits
  | @updatePositions t call stored positions done calls hcalls hdone hread =>
    cases positions with
    | nil =>
      obtain ⟨start, hpoints, hpositions, hranked⟩ := hdone
      rw [List.append_nil] at hread
      have hnext : CallsDone origin (done ++ [call]) (storePositions call stored t) :=
        ⟨start, hpoints, hpositions, hranked.snoc ⟨stored, hread, rfl⟩⟩
      exact .rank (by simpa using hcalls) hnext
    | cons entry rest =>
      obtain ⟨category, positions⟩ := entry
      rw [← List.singleton_append, ← List.append_assoc] at hread
      have hstored : storePositions call (stored ++ [(category, positions)]) t =
          updatePositions call category positions (storePositions call stored t) := by
        simp only [storePositions, List.foldl_append, List.foldl_cons, List.foldl_nil]
      have hstage := @Stage.updatePositions origin t call _ _ _ _ hcalls hdone hread
      rw [hstored] at hstage
      exact hstage
  | delete hdone =>
    refine .finished hdone fun key hgroup => ?_
    exact (position?_deleteStats _ _ key).trans (if_neg hgroup)
  | finished => cases hfits
  | aborted => cases hfits

theorem stage_of_run {s : State} {ticks : List Tick}
    (hrun : Run mergeSystem ⟨origin, .readServers⟩ ticks s) : Stage origin s := by
  have hstep : ∀ s tick, Stage origin s → mergeSystem.enabled s tick →
      Stage origin (mergeSystem.next s tick) := fun s tick h hfits => stage_work h hfits
  exact hrun.invariant hstep (.reading (.inl rfl))

theorem not_ranked_bystander {call : RankCall ServerId} {key : StatKey ServerId}
    (hcall : call ∈ rankCalls (readItems origin)) (hkey : Bystander origin key.group)
    (points : StatKey ServerId → Option ℚ) : ¬ Ranked points call key := by
  intro hranked
  obtain ⟨⟨year, servers⟩, hentry, hmem⟩ := exists_entry_of_mem_rankCalls hcall
  have hfiltered := hranked.filters
  rw [(mem_updatePositionsForYear hmem).2.1, decide_eq_true_eq] at hfiltered
  obtain ⟨profile, hitem⟩ := (mem_affectedServersPerYear hentry _).mp hfiltered
  obtain ⟨id, hlookup, _⟩ := mem_affectedItems.mp hitem
  exact hkey.2 (List.mem_map_of_mem (f := Prod.snd) (mem_of_lookup hlookup))

/-- The position of the row is not in the way of any call of the run. -/
def Spared (origin : Database) (key : StatKey ServerId) : Prop :=
  ∀ call ∈ rankCalls (readItems origin), Clears (recalculatedPoints origin) call key →
    position? origin.serverStats key = none

theorem position?_of_callsDone {done : List (RankCall ServerId)} {key : StatKey ServerId}
    (hdone : CallsDone origin done t) (hcalls : ∀ call ∈ done, call ∈ rankCalls (readItems origin))
    (hkey : Bystander origin key.group) :
    position? t key = position? origin.serverStats key ↔
      ∀ call ∈ done, Clears (recalculatedPoints origin) call key →
        position? origin.serverStats key = none := by
  obtain ⟨start, hpoints, hpositions, hranked⟩ := hdone
  rw [← hpoints, ← hpositions]
  exact position?_eq_iff hranked fun call hcall =>
    not_ranked_bystander (hcalls call hcall) hkey _

theorem position?_of_spared {s : State} {key : StatKey ServerId} (h : Stage origin s)
    (hkey : Bystander origin key.group) (hspared : Spared origin key) :
    position? s.db.serverStats key = position? origin.serverStats key := by
  cases h with
  | reading => rfl
  | recalculate _ _ hpositions => exact congrFun hpositions key
  | @rank t done calls hcalls hdone =>
    have hsub : ∀ call ∈ done, call ∈ rankCalls (readItems origin) := fun call hcall =>
      hcalls ▸ List.mem_append_left _ hcall
    exact (position?_of_callsDone hdone hsub hkey).mpr fun call hcall =>
      hspared call (hsub call hcall)
  | @updatePositions t call stored positions done calls hcalls hdone hread =>
    have hsub : ∀ call ∈ done, call ∈ rankCalls (readItems origin) := fun call hcall =>
      hcalls ▸ List.mem_append_left _ hcall
    have hcall : call ∈ rankCalls (readItems origin) := by simp [← hcalls]
    have hposition := (position?_of_callsDone hdone hsub hkey).mpr fun call hcall =>
      hspared call (hsub call hcall)
    have hspares : ∀ entry ∈ stored, Spares t key entry.2 := fun entry hentry =>
      spares_of_not_ranked (hread.mem_iff.mp (List.mem_append_left _ hentry))
        (not_ranked_bystander hcall hkey _)
    refine (position?_storePositions_of_spares hspares).trans ?_
    split
    · rename_i hcleared
      obtain ⟨hqualify, hyear, hcategory⟩ := hcleared
      obtain ⟨start, hpoints, _, hranked⟩ := hdone
      have hmem : key.category ∈ (positionsPerCat call t).map Prod.fst := by
        rw [← (hread.map Prod.fst).mem_iff, List.map_append]
        exact List.mem_append_left _ hcategory
      rw [mem_positionsPerCat_fst, points?_of_ranksAll hranked, hpoints] at hmem
      exact (hspared call hcall ⟨hqualify, hyear, hmem⟩).symm
    · exact hposition
  | delete hdone => exact (position?_of_callsDone hdone (fun _ h => h) hkey).mpr hspared
  | finished hdone hpositions =>
    rw [hpositions key hkey.1]
    exact (position?_of_callsDone hdone (fun _ h => h) hkey).mpr hspared
  | aborted hpositions => exact congrFun hpositions key

theorem spared_of_finished {db : Database} {key : StatKey ServerId}
    (h : Stage origin ⟨db, .finished⟩) (hkey : Bystander origin key.group)
    (hkept : position? db.serverStats key = position? origin.serverStats key) :
    Spared origin key := by
  generalize hs : State.mk db Job.finished = s at h
  cases h with
  | finished hdone hpositions =>
    cases hs
    rw [hpositions key hkey.1] at hkept
    exact (position?_of_callsDone hdone (fun _ h => h) hkey).mp hkept
  | reading hjob =>
    cases hs
    simp at hjob
  | _ => cases hs

end Stages

/-- A subset of the servers is ranked: the positions elsewhere stay exactly if nothing that has
one is cleared. So do those of the bystanders of a merge: throughout a run if nothing of theirs is
cleared, and to its end only then. -/
theorem positions_kept_iff (thresholds : Thresholds) (year : ℕ) (servers : List ServerId)
    (origin : Database) :
    (∀ t t' : StatTable ServerId, RanksAll (updatePositionsForYear thresholds year servers) t t' →
      ((∀ key, Elsewhere year servers key → position? t' key = position? t key) ↔
        ∀ key, Elsewhere year servers key →
          ∀ call ∈ updatePositionsForYear thresholds year servers,
            Clears (points? t) call key → position? t key = none)) ∧
    ∀ (ticks : List Tick) (s : State),
      Run mergeSystem ⟨origin, .readServers⟩ ticks s →
        ((∀ key, Bystander origin key.group → Spared origin key) →
          ∀ key, Bystander origin key.group →
            position? s.db.serverStats key = position? origin.serverStats key) ∧
        (s.job = .finished →
          (∀ key, Bystander origin key.group →
            position? s.db.serverStats key = position? origin.serverStats key) →
          ∀ key, Bystander origin key.group → Spared origin key) := by
  refine ⟨fun t t' h => positions_elsewhere_iff h, ?_⟩
  intro ticks s hrun
  have hstage := stage_of_run hrun
  constructor
  · intro hspared key hkey
    exact position?_of_spared hstage hkey (hspared key hkey)
  · intro hfinished hkept key hkey
    obtain ⟨db, job⟩ := s
    obtain rfl : job = .finished := hfinished
    exact spared_of_finished hstage hkey (hkept key hkey)

section Example

/-- A qualified profile on each of two servers. -/
def twoServers : StatTable ServerId where
  rows := [⟨1, .spmRatio, 2024, 1, 1, 2, none⟩, ⟨2, .time, 2024, 1, 1, 40000, none⟩,
    ⟨3, .spmRatio, 2024, 2, 2, 3, some 1⟩, ⟨4, .time, 2024, 2, 2, 50000, some 1⟩]
  nodup := by decide
  nodupKeys := by decide

def firstServerRanked : StatTable ServerId :=
  (updatePositionsForYear settings 2024 [1]).foldl rank twoServers

theorem position_cleared_elsewhere :
    ¬ ∀ (thresholds : Thresholds) (year : ℕ) (servers : List ServerId) (t t' : StatTable ServerId),
      RanksAll (updatePositionsForYear thresholds year servers) t t' →
        ∀ key, Elsewhere year servers key → position? t' key = position? t key := by
  intro h
  have hkept := h settings 2024 [1] twoServers firstServerRanked (ranksAll_foldl _ _)
    ⟨2024, .spmRatio, 2, 2⟩ (.inl (by decide))
  revert hkept
  decide +kernel

theorem positions_kept_iff_of_oneServer :
    (∀ key, Elsewhere 2024 [1] key → position? ((updatePositionsForYear settings 2024 [1]).foldl
      rank (twoServers.delete fun row => row.group = 2)) key =
        position? (twoServers.delete fun row => row.group = 2) key) ∧
    ∀ key, Bystander Database.empty key.group →
      position? Database.empty.serverStats key = position? Database.empty.serverStats key := by
  have hiff := positions_kept_iff settings 2024 [1] Database.empty
  refine ⟨(hiff.1 _ _ (ranksAll_foldl _ _)).mpr ?_, ?_⟩
  · intro key hkey call _ hclears
    rw [position?]
    cases hget : (twoServers.delete fun row => row.group = 2).get? key with
    | none => rfl
    | some row =>
      obtain ⟨hrow, rfl⟩ := UniqueTable.get?_eq_some_iff.mp hget
      have hall : ∀ row ∈ (twoServers.delete fun row => row.group = 2).rows,
          row.position = none := by decide
      exact hall row hrow
  · have hrun : Run mergeSystem ⟨Database.empty, .readServers⟩ [⟨0, [], []⟩]
        ⟨Database.empty, .finished⟩ := .cons trivial (.nil _)
    apply (hiff.2 _ _ hrun).1
    intro key _ call hcall
    cases hcall

end Example

end PositionFrame

end Swat4Stats
