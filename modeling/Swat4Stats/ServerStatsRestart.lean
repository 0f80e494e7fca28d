import Swat4Stats.Library.Retry
import Swat4Stats.ServerStatsRace
import Swat4Stats.Standings
import Mathlib.Data.Set.Finite.Lattice
import Mathlib.Logic.Relation

/-!
# Restarting the merge of server stats

`merge_unmerged_stats` derives its work from the rows of the merged servers, which it keeps until
its last transaction. A run that was cut off leaves every row either as it was or as the run was to
make it, so the next run reads the same work and finishes it.
-/

namespace Swat4Stats

set_option autoImplicit false

open Tx Transition Retry StatsManager

namespace ServerStatsRestart

open ServerStatsManager

section Work

/-- What a run reads: the main servers with the profiles and years to recalculate. -/
def readItems (db : Database) : List (ServerId × AnnualProfile) :=
  affectedItems (mergedServers db) (unmergedStatsSummary (mergedServers db) db)

def rankCalls (items : List (ServerId × AnnualProfile)) : List (RankCall ServerId) :=
  (affectedServersPerYear items).flatMap fun entry =>
    updatePerServerPositionsForYear entry.1 entry.2

def orderedColumns (item : StatsSummary) : ℕ ×ₗ ℕ ×ₗ ℕ :=
  toLex (item.server, toLex (item.profile, item.year))

theorem le_iff_orderedColumns {a b : StatsSummary} :
    a.le b ↔ orderedColumns a ≤ orderedColumns b := by
  simp only [StatsSummary.le, orderedColumns, Prod.Lex.toLex_le_toLex]

instance : IsTrans StatsSummary StatsSummary.le := by
  constructor
  intro a b c hab hbc
  rw [le_iff_orderedColumns] at hab hbc ⊢
  exact hab.trans hbc

instance : Std.Total StatsSummary.le := by
  constructor
  intro a b
  rw [le_iff_orderedColumns, le_iff_orderedColumns]
  exact le_total _ _

instance : Std.Antisymm StatsSummary.le := by
  constructor
  rintro ⟨server, profile, year⟩ ⟨server', profile', year'⟩ hab hba
  rw [le_iff_orderedColumns] at hab hba
  have heq := hab.antisymm hba
  cases heq
  rfl

/-- The summary is sorted and has no duplicates, so it only depends on which stats there are. -/
theorem unmergedStatsSummary_congr {merged : List (ServerId × ServerId)} {db db' : Database}
    (h : ∀ id ∈ merged.map Prod.fst, ∀ affected,
      HasStats db'.serverStats id affected ↔ HasStats db.serverStats id affected) :
    unmergedStatsSummary merged db' = unmergedStatsSummary merged db := by
  have hnodup : ∀ db, (unmergedStatsSummary merged db).Nodup := fun db =>
    (List.perm_insertionSort _ _).nodup_iff.mpr (List.nodup_dedup _)
  have hsorted : ∀ db, (unmergedStatsSummary merged db).Pairwise StatsSummary.le := fun db =>
    List.pairwise_insertionSort _ _
  refine List.Perm.eq_of_pairwise' (hsorted db') (hsorted db)
    ((List.perm_ext_iff_of_nodup (hnodup db') (hnodup db)).mpr fun item => ?_)
  rw [mem_unmergedStatsSummary, mem_unmergedStatsSummary]
  constructor
  · rintro ⟨hserver, hstats⟩
    exact ⟨hserver, (h _ hserver _).mp hstats⟩
  · rintro ⟨hserver, hstats⟩
    exact ⟨hserver, (h _ hserver _).mpr hstats⟩

/-- The call has the row with these unique columns in view. -/
def applies (key : StatKey ServerId) (call : RankCall ServerId) : Bool :=
  decide (key.year = call.year) && call.cats key.category

theorem mem_updatePositionsForYear {thresholds : Thresholds} {year : ℕ} {servers : List ServerId}
    {call : RankCall ServerId} (h : call ∈ updatePositionsForYear thresholds year servers) :
    call.year = year ∧ call.filters = (fun server => decide (server ∈ servers)) ∧
      call.refGroup = (fun group group' => decide (group = group')) := by
  simp only [updatePositionsForYear, List.mem_cons, List.not_mem_nil, or_false] at h
  obtain rfl | rfl | rfl | rfl := h
  · exact ⟨rfl, rfl, rfl⟩
  · exact ⟨rfl, rfl, rfl⟩
  · exact ⟨rfl, rfl, rfl⟩
  · exact ⟨rfl, rfl, rfl⟩

def Apart (category : StatCategory) (cats cats' : StatCategory → Bool) : Prop :=
  ¬ (cats category = true ∧ cats' category = true)

theorem pairwise_cats (year : ℕ) (servers : List ServerId) (category : StatCategory) :
    ((updatePerServerPositionsForYear year servers).map RankCall.cats).Pairwise
      (Apart category) := by
  change List.Pairwise (Apart category) [fun c => decide (c ∈ [.spmRatio]),
    fun c => decide (c ∈ [.sprRatio]), fun c => decide (c ∈ [.kdRatio]),
    fun c => decide (c ∉ [.spmRatio, .sprRatio, .kdRatio])]
  simp only [List.pairwise_cons, List.mem_cons, List.not_mem_nil, or_false, Apart,
    decide_eq_true_eq, forall_eq_or_imp, forall_eq]
  grind

theorem eq_of_cats {year : ℕ} {servers : List ServerId} {call call' : RankCall ServerId}
    (h : call ∈ updatePerServerPositionsForYear year servers)
    (h' : call' ∈ updatePerServerPositionsForYear year servers) {category : StatCategory}
    (hcats : call.cats category = true) (hcats' : call'.cats category = true) : call = call' := by
  by_contra hne
  have hapart := List.pairwise_map.mp (pairwise_cats year servers category)
  have : Std.Symm fun a b : RankCall ServerId => Apart category a.cats b.cats :=
    ⟨fun _ _ hapart hboth => hapart hboth.symm⟩
  exact hapart.forall h h' hne ⟨hcats, hcats'⟩

variable {items : List (ServerId × AnnualProfile)} {call call' : RankCall ServerId}
  {key : StatKey ServerId}

theorem exists_entry_of_mem_rankCalls (h : call ∈ rankCalls items) :
    ∃ entry ∈ affectedServersPerYear items,
      call ∈ updatePerServerPositionsForYear entry.1 entry.2 :=
  List.mem_flatMap.mp h

theorem eq_of_applies (h : call ∈ rankCalls items) (h' : call' ∈ rankCalls items)
    (happlies : applies key call = true) (happlies' : applies key call' = true) : call = call' := by
  obtain ⟨entry, hentry, hcall⟩ := exists_entry_of_mem_rankCalls h
  obtain ⟨entry', hentry', hcall'⟩ := exists_entry_of_mem_rankCalls h'
  rw [applies, Bool.and_eq_true, decide_eq_true_eq] at happlies happlies'
  have hyear : entry.1 = entry'.1 := by
    rw [← (mem_updatePositionsForYear hcall).1,
      ← (mem_updatePositionsForYear hcall').1, ← happlies.1, happlies'.1]
  rw [← eq_of_mem_affectedServersPerYear hentry hentry' hyear] at hcall'
  exact eq_of_cats hcall hcall' happlies.2 happlies'.2

end Work

/-- No server is merged into a merged one, and no reference is broken. -/
structure Consistent (db : Database) : Prop where
  mains : ∀ server ∈ db.servers.rows, ∀ mainId ∈ server.mergedInto,
    ∃ main ∈ db.servers.rows, main.pk = mainId ∧ main.mergedInto = none
  profiles : ∀ row ∈ db.serverStats.rows, ∃ profile ∈ db.profiles.rows, profile.pk = row.profile

def store (origin : Database) : Update (StatKey ServerId) (Option ℚ) where
  apply key points :=
    if (key.group, key.profile, key.year) ∈ readItems origin then
      (freshPoints origin key).or points
    else points
  idempotent key points := by
    split
    · exact or_or_self _ _
    · rfl

/-- The points when everything is recalculated. -/
def recalculatedPoints (origin : Database) (key : StatKey ServerId) : Option ℚ :=
  (store origin).apply key (points? origin.serverStats key)

/-- The position that the call for the row leaves where `position` was before. -/
noncomputable def place (origin : Database) : Update (StatKey ServerId) (Option ℕ) where
  apply key position :=
    match (rankCalls (readItems origin)).find? (applies key) with
    | some call => placed (recalculatedPoints origin) call key position
    | none => position
  idempotent key position := by
    cases (rankCalls (readItems origin)).find? (applies key) with
    | none => rfl
    | some call => exact placed_placed _ _ _ _

section Target

variable {origin : Database} {key : StatKey ServerId} {mainId : ServerId}
  {affected : AnnualProfile} {call : RankCall ServerId}

theorem store_of_mem (h : (key.group, key.profile, key.year) ∈ readItems origin)
    (points : Option ℚ) : (store origin).apply key points = (freshPoints origin key).or points :=
  if_pos h

theorem store_of_not_mem (h : (key.group, key.profile, key.year) ∉ readItems origin)
    (points : Option ℚ) : (store origin).apply key points = points :=
  if_neg h

theorem place_of_applies (hcall : call ∈ rankCalls (readItems origin))
    (happlies : applies key call = true) (position : Option ℕ) :
    (place origin).apply key position = placed (recalculatedPoints origin) call key position := by
  obtain ⟨found, hfound⟩ : ∃ found, (rankCalls (readItems origin)).find? (applies key) =
      some found := by
    rw [← Option.isSome_iff_exists, List.find?_isSome]
    exact ⟨call, hcall, happlies⟩
  obtain rfl := eq_of_applies (List.mem_of_find?_eq_some hfound) hcall
    (List.find?_some hfound) happlies
  simp only [place, hfound]

theorem place_of_not_applies (h : ∀ call ∈ rankCalls (readItems origin), ¬ applies key call = true)
    (position : Option ℕ) : (place origin).apply key position = position := by
  simp only [place, List.find?_eq_none.mpr h]

theorem exists_of_mem_readItems (h : (mainId, affected) ∈ readItems origin) :
    ∃ server ∈ origin.servers.rows, server.mergedInto = some mainId ∧
      HasStats origin.serverStats server.pk affected := by
  obtain ⟨id, hlookup, hstats⟩ := mem_affectedItems.mp h
  obtain ⟨server, hserver, rfl, hmerged, _⟩ := mem_mergedServers.mp (mem_of_lookup hlookup)
  exact ⟨server, hserver, hmerged, hstats⟩

variable (hconsistent : Consistent origin)

include hconsistent

theorem main_of_mem_readItems (h : (mainId, affected) ∈ readItems origin) :
    ∃ main ∈ origin.servers.rows, main.pk = mainId ∧ main.mergedInto = none := by
  obtain ⟨server, hserver, hmerged, _⟩ := exists_of_mem_readItems h
  exact hconsistent.mains server hserver mainId hmerged

theorem profile_of_mem_readItems (h : (mainId, affected) ∈ readItems origin) :
    origin.profiles.find? affected.1 ≠ none := by
  obtain ⟨server, _, _, hstats⟩ := exists_of_mem_readItems h
  obtain ⟨row, hrow, _, rfl⟩ := hasStats_iff.mp hstats
  obtain ⟨profile, hprofile, hpk⟩ := hconsistent.profiles row hrow
  intro hnone
  exact Table.find?_eq_none_iff.mp hnone profile hprofile hpk

theorem not_mem_mergedServers (h : (mainId, affected) ∈ readItems origin) :
    mainId ∉ (mergedServers origin).map Prod.fst := by
  obtain ⟨main, hmain, rfl, hnone⟩ := main_of_mem_readItems hconsistent h
  rintro hmem
  obtain ⟨⟨id, m⟩, hpair, hpk⟩ := List.mem_map.mp hmem
  obtain ⟨server, hserver, hid, hmerged, _⟩ := mem_mergedServers.mp hpair
  rw [origin.servers.eq_of_key_eq hserver hmain (hid.trans hpk), hnone] at hmerged
  cases hmerged

/-- The stats of the merged servers are what they were, so a later run reads the same work. -/
theorem readItems_of_underway {waiting : StatKey ServerId → Prop} {t : StatTable ServerId}
    (h : Underway (store origin) (points? origin.serverStats) waiting (points? t)) :
    affectedItems (mergedServers origin)
      (unmergedStatsSummary (mergedServers origin) { origin with serverStats := t }) =
        readItems origin := by
  rw [readItems, unmergedStatsSummary_congr]
  intro id hid affected
  refine hasStats_congr fun key hgroup => ?_
  have hnot : (key.group, key.profile, key.year) ∉ readItems origin := fun hmem =>
    not_mem_mergedServers hconsistent hmem (hgroup.symm ▸ hid)
  obtain hupdated | ⟨hold, _⟩ := h key
  · exact hupdated.trans (store_of_not_mem hnot _)
  · exact hold

end Target

/-- Points within each ranked group are distinct. -/
def Distinct (origin : Database) : Prop :=
  ∀ call ∈ rankCalls (readItems origin), DistinctPoints (recalculatedPoints origin) call

def PointsUnderway (origin : Database) (waiting : StatKey ServerId → Prop)
    (t : StatTable ServerId) : Prop :=
  Underway (store origin) (points? origin.serverStats) waiting (points? t)

def PositionsUnderway (origin : Database) (waiting : StatKey ServerId → Prop)
    (t : StatTable ServerId) : Prop :=
  Distinct origin → Underway (place origin) (position? origin.serverStats) waiting (position? t)

/-- What a run that gets to its end leaves. -/
structure Outcome (origin db : Database) : Prop where
  points : ∀ key, points? db.serverStats key =
    if key.group ∈ (mergedServers origin).map Prod.fst then none
    else recalculatedPoints origin key
  positions : Distinct origin → ∀ key, position? db.serverStats key =
    if key.group ∈ (mergedServers origin).map Prod.fst then none
    else (place origin).apply key (position? origin.serverStats key)
  status : ∀ id, (db.servers.find? id).map (fun server => server.mergedStatsAt.isSome) =
    (origin.servers.find? id).map fun server =>
      decide (server.pk ∈ (mergedServers origin).map Prod.fst) || server.mergedStatsAt.isSome
  nothingLeft : mergedServers db = []

/-- Where a run may stand, after any number of runs from `origin` that were cut off. -/
inductive Progress (origin : Database) : State → Prop
  | readServers {t : StatTable ServerId} (hpoints : PointsUnderway origin (fun _ => True) t)
      (hpositions : PositionsUnderway origin (fun _ => True) t) :
      Progress origin ⟨{ origin with serverStats := t }, .readServers⟩
  | readSummary {t : StatTable ServerId} (hpoints : PointsUnderway origin (fun _ => True) t)
      (hpositions : PositionsUnderway origin (fun _ => True) t) :
      Progress origin ⟨{ origin with serverStats := t }, .readSummary (mergedServers origin)⟩
  | recalculate {t : StatTable ServerId} {pending : List (ServerId × List AnnualProfile)}
      (hitems : ∀ entry ∈ pending, (∃ affected, (entry.1, affected) ∈ readItems origin) ∧
        ∀ affected ∈ entry.2, (entry.1, affected) ∈ readItems origin)
      (hpoints : PointsUnderway origin
        (fun key => ∃ entry ∈ pending, entry.1 = key.group ∧ (key.profile, key.year) ∈ entry.2) t)
      (hpositions : PositionsUnderway origin (fun _ => True) t) :
      Progress origin ⟨{ origin with serverStats := t },
        .recalculate (mergedServers origin) pending (rankCalls (readItems origin))⟩
  | rank {t : StatTable ServerId} {calls : List (RankCall ServerId)}
      (hcalls : ∀ call ∈ calls, call ∈ rankCalls (readItems origin))
      (hpoints : points? t = recalculatedPoints origin)
      (hpositions :
        PositionsUnderway origin (fun key => ∃ call ∈ calls, applies key call = true) t) :
      Progress origin ⟨{ origin with serverStats := t }, .rank (mergedServers origin) calls⟩
  | updatePositions {t : StatTable ServerId} {call : RankCall ServerId}
      {positions : List (StatCategory × List (ℕ × ℕ))} {calls : List (RankCall ServerId)}
      (hcall : call ∈ rankCalls (readItems origin))
      (hcalls : ∀ call ∈ calls, call ∈ rankCalls (readItems origin))
      (hpoints : points? t = recalculatedPoints origin)
      (hstandings : Distinct origin → ∀ entry ∈ positions,
        Standings (recalculatedPoints origin) call entry.1 entry.2 t)
      (hpositions : PositionsUnderway origin (fun key =>
        (∃ call ∈ calls, applies key call = true) ∨
          applies key call = true ∧ key.category ∈ positions.map Prod.fst) t) :
      Progress origin ⟨{ origin with serverStats := t },
        .updatePositions (mergedServers origin) call positions calls⟩
  | delete {t : StatTable ServerId} (hpoints : points? t = recalculatedPoints origin)
      (hpositions : PositionsUnderway origin (fun _ => False) t) :
      Progress origin ⟨{ origin with serverStats := t }, .delete (mergedServers origin)⟩
  | settled {db : Database} {job : Job} (hjob : job = .readServers ∨ job = .finished)
      (houtcome : Outcome origin db) : Progress origin ⟨db, job⟩

section Steps

variable {origin : Database} {t : StatTable ServerId} {tick : Tick}

theorem readItems_eq_nil (hnil : mergedServers origin = []) : readItems origin = [] := by
  rw [List.eq_nil_iff_forall_not_mem]
  rintro ⟨mainId, affected⟩ hmem
  obtain ⟨id, hlookup, _⟩ := mem_affectedItems.mp hmem
  rw [hnil] at hlookup
  cases hlookup

theorem outcome_of_nil (hnil : mergedServers origin = [])
    (hpoints : PointsUnderway origin (fun _ => True) t)
    (hpositions : PositionsUnderway origin (fun _ => True) t) :
    Outcome origin { origin with serverStats := t } := by
  have hitems := readItems_eq_nil hnil
  refine ⟨fun key => ?_, fun hdistinct key => ?_, fun id => ?_, hnil⟩
  · have hneutral : ∀ key, ¬ False → ∀ points, (store origin).apply key points = points :=
      fun key _ points => store_of_not_mem (by simp [hitems]) points
    rw [if_neg (by simp [hnil])]
    exact (hpoints.of_neutral hneutral).eq_updated id
  · have hneutral : ∀ key, ¬ False → ∀ position, (place origin).apply key position = position :=
      fun key _ position => place_of_not_applies (by simp [hitems, rankCalls,
        affectedServersPerYear]) position
    rw [if_neg (by simp [hnil])]
    exact ((hpositions hdistinct).of_neutral hneutral).eq_updated id
  · simp [hnil]

theorem progress_readServers (hpoints : PointsUnderway origin (fun _ => True) t)
    (hpositions : PositionsUnderway origin (fun _ => True) t) :
    Progress origin (work tick ⟨{ origin with serverStats := t }, .readServers⟩) := by
  have hmerged : mergedServers { origin with serverStats := t } = mergedServers origin := rfl
  rw [work]
  dsimp only
  split
  · rename_i hnil
    exact .settled (.inr rfl) (outcome_of_nil hnil hpoints hpositions)
  · rw [hmerged]
    exact .readSummary hpoints hpositions

theorem progress_readSummary (hconsistent : Consistent origin)
    (hpoints : PointsUnderway origin (fun _ => True) t)
    (hpositions : PositionsUnderway origin (fun _ => True) t) :
    Progress origin
      (work tick ⟨{ origin with serverStats := t }, .readSummary (mergedServers origin)⟩) := by
  rw [work]
  dsimp only
  rw [readItems_of_underway hconsistent hpoints]
  refine .recalculate ?_ (hpoints.of_neutral fun key hnot => store_of_not_mem ?_) hpositions
  · intro entry hentry
    refine ⟨?_, fun affected haffected =>
      mem_affectedProfilesPerServer.mp ⟨entry, hentry, rfl, haffected⟩⟩
    obtain ⟨mainId, hmain, rfl⟩ := List.mem_map.mp hentry
    obtain ⟨⟨_, affected⟩, hitem, rfl⟩ := List.mem_map.mp (List.mem_eraseDups.mp hmain)
    exact ⟨affected, hitem⟩
  · intro hmem
    exact hnot (mem_affectedProfilesPerServer.mpr hmem)

theorem progress_recalculated (hpoints : PointsUnderway origin (fun _ => False) t)
    (hpositions : PositionsUnderway origin (fun _ => True) t) :
    Progress origin ⟨{ origin with serverStats := t },
      .rank (mergedServers origin) (rankCalls (readItems origin))⟩ := by
  refine .rank (fun _ hcall => hcall) (funext fun key => hpoints.eq_updated id) ?_
  intro hdistinct
  refine (hpositions hdistinct).of_neutral fun key hnot => place_of_not_applies ?_
  exact fun call hcall happlies => hnot ⟨call, hcall, happlies⟩

/-- A recalculation brings the points of its main server to where the run is going. -/
theorem PointsUnderway.recalculate {entry : ServerId × List AnnualProfile}
    {pending : List (ServerId × List AnnualProfile)} {order : List AnnualProfile}
    {t' : StatTable ServerId}
    (haffected : ∀ affected ∈ entry.2, (entry.1, affected) ∈ readItems origin)
    (hpoints : PointsUnderway origin (fun key => ∃ e ∈ entry :: pending,
      e.1 = key.group ∧ (key.profile, key.year) ∈ e.2) t)
    (horder : order.Perm entry.2)
    (hrecalculated : Recalculated entry.1 order { origin with serverStats := t } t') :
    PointsUnderway origin
      (fun key => ∃ e ∈ pending, e.1 = key.group ∧ (key.profile, key.year) ∈ e.2) t' := by
  have hdone : ∀ key : StatKey ServerId, key.group = entry.1 → (key.profile, key.year) ∈ order →
      points? t' key = (store origin).apply key (points? t key) := by
    intro key hgroup hmem
    rw [hrecalculated.points, if_pos ⟨hgroup, hmem⟩, store_of_mem]
    · rfl
    · rw [hgroup]
      exact haffected _ (horder.mem_iff.mp hmem)
  refine Underway.step hpoints (fun key => ?_) ?_
  · obtain ⟨hgroup, hmem⟩ | hnot :=
      Classical.em (key.group = entry.1 ∧ (key.profile, key.year) ∈ order)
    · exact .inr (hdone key hgroup hmem)
    · rw [hrecalculated.points, if_neg hnot]
      exact .inl rfl
  · rintro key ⟨e, he, hgroup, hmem⟩
    obtain rfl | he := List.mem_cons.mp he
    · exact .inr (hdone key hgroup.symm (horder.mem_iff.mpr hmem))
    · exact .inl ⟨e, he, hgroup, hmem⟩

theorem progress_recalculate (hconsistent : Consistent origin)
    {entry : ServerId × List AnnualProfile} {pending : List (ServerId × List AnnualProfile)}
    (hitems : ∀ e ∈ entry :: pending, (∃ affected, (e.1, affected) ∈ readItems origin) ∧
      ∀ affected ∈ e.2, (e.1, affected) ∈ readItems origin)
    (hpoints : PointsUnderway origin (fun key => ∃ e ∈ entry :: pending,
      e.1 = key.group ∧ (key.profile, key.year) ∈ e.2) t)
    (hpositions : PositionsUnderway origin (fun _ => True) t)
    (horder : tick.order.Perm entry.2) :
    Progress origin (work tick ⟨{ origin with serverStats := t },
      .recalculate (mergedServers origin) (entry :: pending) (rankCalls (readItems origin))⟩) := by
  obtain ⟨⟨affected, hmain⟩, haffected⟩ := hitems entry List.mem_cons_self
  rw [work]
  dsimp only
  obtain ⟨e, _, hmissing | ⟨missing, hmem, hnone⟩⟩ | ⟨t', hrun, hrecalculated⟩ :=
    run_recalculateMergedStatsForServer entry.1 tick.order { origin with serverStats := t }
  · -- the main server exists
    obtain ⟨main, hmain, hpk, _⟩ := main_of_mem_readItems hconsistent hmain
    exact absurd hpk (Table.find?_eq_none_iff.mp hmissing main hmain)
  · -- and so do the profiles
    have hprofile := profile_of_mem_readItems hconsistent
      (haffected missing (horder.mem_iff.mp hmem))
    exact absurd hnone hprofile
  rw [hrun]
  refine .recalculate (fun e he => hitems e (List.mem_cons_of_mem _ he))
    (hpoints.recalculate haffected horder hrecalculated) ?_
  intro hdistinct
  have hsame : position? t' = position? t := funext hrecalculated.positions
  rw [hsame]
  exact hpositions hdistinct

theorem progress_rank {call : RankCall ServerId} {calls : List (RankCall ServerId)}
    (hcalls : ∀ c ∈ call :: calls, c ∈ rankCalls (readItems origin))
    (hpoints : points? t = recalculatedPoints origin)
    (hpositions : PositionsUnderway origin
      (fun key => ∃ c ∈ call :: calls, applies key c = true) t)
    (hread : tick.positions.Perm (positionsPerCat call t)) :
    Progress origin (work tick ⟨{ origin with serverStats := t },
      .rank (mergedServers origin) (call :: calls)⟩) := by
  have hcall := hcalls call List.mem_cons_self
  refine .updatePositions hcall (fun c hc => hcalls c (List.mem_cons_of_mem _ hc)) hpoints ?_ ?_
  · rintro hdistinct ⟨category, positions⟩ hentry
    rw [← hpoints]
    exact standings_of_mem_positionsPerCat (hpoints ▸ hdistinct call hcall)
      (hread.mem_iff.mp hentry)
  · intro hdistinct
    apply (hpositions hdistinct).step (fun key => .inl rfl)
    rintro key ⟨c, hc, happlies⟩
    obtain rfl | hc := List.mem_cons.mp hc
    · obtain hcategory | hcategory := Classical.em (key.category ∈ tick.positions.map Prod.fst)
      · exact .inl (.inr ⟨happlies, hcategory⟩)
      · right
        rw [(hread.map Prod.fst).mem_iff, mem_positionsPerCat_fst, hpoints] at hcategory
        rw [place_of_applies hcall happlies, placed_of_not_numbered hcategory]
    · exact .inl (.inl ⟨c, hc, happlies⟩)

theorem progress_updatePositions {call : RankCall ServerId} {category : StatCategory}
    {positions : List (ℕ × ℕ)} {rest : List (StatCategory × List (ℕ × ℕ))}
    {calls : List (RankCall ServerId)} (hcall : call ∈ rankCalls (readItems origin))
    (hcalls : ∀ c ∈ calls, c ∈ rankCalls (readItems origin))
    (hpoints : points? t = recalculatedPoints origin)
    (hstandings : Distinct origin → ∀ entry ∈ (category, positions) :: rest,
      Standings (recalculatedPoints origin) call entry.1 entry.2 t)
    (hpositions : PositionsUnderway origin (fun key => (∃ c ∈ calls, applies key c = true) ∨
      applies key call = true ∧ key.category ∈ ((category, positions) :: rest).map Prod.fst) t) :
    Progress origin (work tick ⟨{ origin with serverStats := t },
      .updatePositions (mergedServers origin) call ((category, positions) :: rest) calls⟩) := by
  refine .updatePositions hcall hcalls ?_ ?_ ?_
  · rw [← hpoints]
    exact funext fun key => points?_updatePositions _ _ _ _ key
  · intro hdistinct entry hentry
    exact (hstandings hdistinct entry (List.mem_cons_of_mem _ hentry)).updatePositions
  · intro hdistinct
    have hstanding := hstandings hdistinct _ List.mem_cons_self
    have hposition := position?_updatePositions_of_standings hstanding hpoints
    have hdone : ∀ key : StatKey ServerId, applies key call = true → key.category = category →
        position? (updatePositions call category positions t) key =
          (place origin).apply key (position? t key) := by
      intro key happlies hcategory
      rw [hposition, place_of_applies hcall happlies]
      rw [applies, Bool.and_eq_true, decide_eq_true_eq] at happlies
      exact if_pos ⟨happlies.1, hcategory⟩
    refine (hpositions hdistinct).step (fun key => ?_) ?_
    · obtain ⟨hyear, hcategory⟩ | hnot :=
        Classical.em (key.year = call.year ∧ key.category = category)
      · obtain ⟨other, hranked, hother⟩ := hstanding.numbered
        have hcats : call.cats key.category = true :=
          hcategory.trans hother.symm ▸ hranked.cats
        exact .inr (hdone key (by simp [applies, hyear, hcats]) hcategory)
      · exact .inl ((hposition key).trans (if_neg hnot))
    · rintro key (hwaits | ⟨happlies, hmem⟩)
      · exact .inl (.inl hwaits)
      · rw [List.map_cons] at hmem
        obtain hcategory | hmem := List.mem_cons.mp hmem
        · exact .inr (hdone key happlies hcategory)
        · exact .inl (.inr ⟨happlies, hmem⟩)

/-- With the clock not behind the recorded merge times, the merged servers are settled. -/
theorem mergedServers_markStatsMerged {now : Time}
    (hclock : ∀ server ∈ origin.servers.rows, ∀ mergedIntoAt ∈ server.mergedIntoAt,
      mergedIntoAt ≤ now) :
    mergedServers { origin with
      servers := markStatsMerged ((mergedServers origin).map Prod.fst) now origin.servers
      serverStats := t } = [] := by
  rw [mergedServers_eq_nil_iff]
  intro server hserver
  obtain ⟨old, hold, rfl⟩ := mem_markStatsMerged.mp hserver
  split
  · rw [hasUnmergedStats, Bool.and_eq_false_iff]
    right
    cases hmergedIntoAt : old.mergedIntoAt with
    | none => rfl
    | some mergedIntoAt =>
      exact decide_eq_false (not_lt.mpr (hclock old hold mergedIntoAt hmergedIntoAt))
  · rename_i hid
    cases hunmerged : hasUnmergedStats old with
    | false => rfl
    | true =>
      have hmerged : old.mergedInto.isSome = true := by
        rw [hasUnmergedStats, Bool.and_eq_true] at hunmerged
        exact hunmerged.1
      obtain ⟨m, hm⟩ := Option.isSome_iff_exists.mp hmerged
      have hpair := mem_mergedServers.mpr ⟨old, hold, rfl, hm, hunmerged⟩
      exact absurd (List.mem_map_of_mem (f := Prod.fst) hpair) hid

theorem progress_delete (hpoints : points? t = recalculatedPoints origin)
    (hpositions : PositionsUnderway origin (fun _ => False) t)
    (hclock : ∀ server ∈ origin.servers.rows, ∀ mergedIntoAt ∈ server.mergedIntoAt,
      mergedIntoAt ≤ tick.now) :
    Progress origin
      (work tick ⟨{ origin with serverStats := t }, .delete (mergedServers origin)⟩) := by
  refine .settled (.inr rfl) ⟨fun key => ?_, fun hdistinct key => ?_, fun id => ?_,
    mergedServers_markStatsMerged hclock⟩
  · rw [← hpoints]
    exact points?_deleteStats _ _ _
  · rw [← (hpositions hdistinct).eq_updated id]
    exact position?_deleteStats _ _ _
  · change ((markStatsMerged _ tick.now origin.servers).find? id).map _ = _
    rw [markStatsMerged, Table.find?_update, Option.map_map]
    apply congrArg (Option.map · (origin.servers.find? id))
    funext server
    simp only [Function.comp_apply, decide_eq_true_eq]
    split
    · rename_i hid
      simp [hid]
    · rename_i hid
      simp [hid]

theorem progress_work (hconsistent : Consistent origin) {s : State} (h : Progress origin s)
    (htick : tick.Admissible s) : Progress origin (work tick s) := by
  obtain ⟨hclock, hfits⟩ := htick
  cases h with
  | readServers hpoints hpositions => exact progress_readServers hpoints hpositions
  | readSummary hpoints hpositions => exact progress_readSummary hconsistent hpoints hpositions
  | @recalculate t pending hitems hpoints hpositions =>
    cases pending with
    | nil => exact progress_recalculated (hpoints.mono (by simp)) hpositions
    | cons entry pending => exact progress_recalculate hconsistent hitems hpoints hpositions hfits
  | @rank t calls hcalls hpoints hpositions =>
    cases calls with
    | nil => exact .delete hpoints fun hdistinct => (hpositions hdistinct).mono (by simp)
    | cons call calls => exact progress_rank hcalls hpoints hpositions hfits
  | @updatePositions t call positions calls hcall hcalls hpoints hstandings hpositions =>
    cases positions with
    | nil => exact .rank hcalls hpoints fun hdistinct => (hpositions hdistinct).mono (by simp)
    | cons entry rest =>
      exact progress_updatePositions hcall hcalls hpoints hstandings hpositions
  | delete hpoints hpositions => exact progress_delete hpoints hpositions hclock
  | settled hjob houtcome =>
    obtain rfl | rfl := hjob
    · rw [work]
      dsimp only
      rw [houtcome.nothingLeft]
      exact .settled (.inr rfl) houtcome
    · cases hfits

end Steps

section Completion

def Completes (s : State) : Prop := ∃ ticks db, Run jobSystem s ticks ⟨db, .finished⟩

theorem completes_of_work {s : State} {tick : Tick} (htick : tick.Admissible s)
    (h : Completes (work tick s)) : Completes s := by
  obtain ⟨ticks, db, hrun⟩ := h
  exact ⟨tick :: ticks, db, .cons htick hrun⟩

theorem exists_clock (db : Database) : ∃ now : Time, ∀ server ∈ db.servers.rows,
    ∀ mergedIntoAt ∈ server.mergedIntoAt, mergedIntoAt ≤ now := by
  obtain ⟨now, hnow⟩ :=
    Set.Finite.bddAbove (List.finite_toSet (db.servers.rows.filterMap Server.mergedIntoAt))
  refine ⟨now, fun server hserver mergedIntoAt hmergedIntoAt => hnow ?_⟩
  exact List.mem_filterMap.mpr ⟨server, hserver, hmergedIntoAt⟩

variable {merged : List (ServerId × ServerId)}

theorem completes_delete (db : Database) : Completes ⟨db, .delete merged⟩ := by
  obtain ⟨now, hclock⟩ := exists_clock db
  exact @completes_of_work _ ⟨now, [], []⟩ ⟨hclock, trivial⟩ ⟨[], _, .nil _⟩

theorem completes_updatePositions {call : RankCall ServerId} {calls : List (RankCall ServerId)}
    (hrest : ∀ db, Completes ⟨db, .rank merged calls⟩)
    (positions : List (StatCategory × List (ℕ × ℕ))) (db : Database) :
    Completes ⟨db, .updatePositions merged call positions calls⟩ := by
  induction positions generalizing db with
  | nil =>
    obtain ⟨now, hclock⟩ := exists_clock db
    exact @completes_of_work _ ⟨now, [], []⟩ ⟨hclock, trivial⟩ (hrest db)
  | cons entry positions ih =>
    obtain ⟨now, hclock⟩ := exists_clock db
    exact @completes_of_work _ ⟨now, [], []⟩ ⟨hclock, trivial⟩ (ih _)

theorem completes_rank (calls : List (RankCall ServerId)) (db : Database) :
    Completes ⟨db, .rank merged calls⟩ := by
  induction calls generalizing db with
  | nil =>
    obtain ⟨now, hclock⟩ := exists_clock db
    exact @completes_of_work _ ⟨now, [], []⟩ ⟨hclock, trivial⟩ (completes_delete db)
  | cons call calls ih =>
    obtain ⟨now, hclock⟩ := exists_clock db
    exact @completes_of_work _ ⟨now, [], positionsPerCat call db.serverStats⟩
      ⟨hclock, List.Perm.refl _⟩ (completes_updatePositions ih _ db)

variable {origin : Database} (hconsistent : Consistent origin)

include hconsistent

theorem completes_recalculate {calls : List (RankCall ServerId)}
    {pending : List (ServerId × List AnnualProfile)} {db : Database}
    (h : Progress origin ⟨db, .recalculate merged pending calls⟩) :
    Completes ⟨db, .recalculate merged pending calls⟩ := by
  induction pending generalizing db with
  | nil =>
    obtain ⟨now, hclock⟩ := exists_clock db
    exact @completes_of_work _ ⟨now, [], []⟩ ⟨hclock, trivial⟩ (completes_rank calls db)
  | cons entry pending ih =>
    obtain ⟨now, hclock⟩ := exists_clock db
    have htick : Tick.Admissible ⟨now, entry.2, []⟩
        ⟨db, .recalculate merged (entry :: pending) calls⟩ := ⟨hclock, List.Perm.refl _⟩
    have hnext := progress_work hconsistent h htick
    apply completes_of_work htick
    rw [work] at hnext ⊢
    dsimp only at hnext ⊢
    split at hnext
    · exact ih hnext
    · -- the run is not aborted
      generalize hs : State.mk _ Job.aborted = s at hnext
      cases hnext with
      | settled hjob =>
        cases hs
        simp at hjob
      | _ => cases hs

theorem completes_of_progress {db : Database} (h : Progress origin ⟨db, .readServers⟩) :
    Completes ⟨db, .readServers⟩ := by
  obtain ⟨now, hclock⟩ := exists_clock db
  have htick : Tick.Admissible ⟨now, [], []⟩ ⟨db, .readServers⟩ := ⟨hclock, trivial⟩
  have hnext := progress_work hconsistent h htick
  apply completes_of_work htick
  rw [work] at hnext ⊢
  dsimp only at hnext ⊢
  split at hnext
  · exact ⟨[], db, .nil _⟩
  · have htick' : Tick.Admissible ⟨now, [], []⟩ ⟨db, .readSummary (mergedServers db)⟩ :=
      ⟨hclock, trivial⟩
    exact completes_of_work htick'
      (completes_recalculate hconsistent (progress_work hconsistent hnext htick'))

end Completion

section Runs

/-- What a run from `db` may have committed when it is cut off. -/
def CutOff (db db' : Database) : Prop :=
  ∃ (ticks : List Tick) (job : Job), Run jobSystem ⟨db, .readServers⟩ ticks ⟨db', job⟩

def Complete (db db' : Database) : Prop :=
  ∃ ticks : List Tick, Run jobSystem ⟨db, .readServers⟩ ticks ⟨db', .finished⟩

variable {origin : Database}

theorem progress_origin : Progress origin ⟨origin, .readServers⟩ :=
  .readServers (underway_self fun _ => trivial) fun _ => underway_self fun _ => trivial

theorem progress_of_points {t : StatTable ServerId} {waiting : StatKey ServerId → Prop}
    (hpoints : points? t = recalculatedPoints origin)
    (hpositions : PositionsUnderway origin waiting t) :
    Progress origin ⟨{ origin with serverStats := t }, .readServers⟩ :=
  .readServers (fun key => .inl (congrFun hpoints key)) fun hdistinct =>
    (hpositions hdistinct).mono fun _ _ => trivial

theorem progress_restart {s : State} (h : Progress origin s) :
    Progress origin ⟨s.db, .readServers⟩ := by
  cases h with
  | readServers hpoints hpositions => exact .readServers hpoints hpositions
  | readSummary hpoints hpositions => exact .readServers hpoints hpositions
  | recalculate _ hpoints hpositions =>
    exact .readServers (hpoints.mono fun _ _ => trivial) hpositions
  | rank _ hpoints hpositions => exact progress_of_points hpoints hpositions
  | updatePositions _ _ hpoints _ hpositions => exact progress_of_points hpoints hpositions
  | delete hpoints hpositions => exact progress_of_points hpoints hpositions
  | settled _ houtcome => exact .settled (.inl rfl) houtcome

variable (hconsistent : Consistent origin)

include hconsistent

theorem progress_of_run {s s' : State} {ticks : List Tick} (h : Progress origin s)
    (hrun : Run jobSystem s ticks s') : Progress origin s' := by
  have hstep : ∀ s tick, Progress origin s → jobSystem.enabled s tick →
      Progress origin (jobSystem.next s tick) :=
    fun s tick h henabled => progress_work hconsistent h henabled
  exact hrun.invariant hstep h

theorem progress_of_cutOff {db : Database} (h : Relation.ReflTransGen CutOff origin db) :
    Progress origin ⟨db, .readServers⟩ := by
  induction h with
  | refl => exact progress_origin
  | tail _ hcutOff ih =>
    obtain ⟨ticks, job, hrun⟩ := hcutOff
    exact progress_restart (progress_of_run hconsistent ih hrun)

theorem outcome_of_complete {db final : Database} (h : Progress origin ⟨db, .readServers⟩)
    (hcomplete : Complete db final) : Outcome origin final := by
  obtain ⟨ticks, hrun⟩ := hcomplete
  have hprogress := progress_of_run hconsistent h hrun
  generalize hs : State.mk final Job.finished = s at hprogress
  cases hprogress with
  | settled _ houtcome =>
    cases hs
    exact houtcome
  | _ => cases hs

/-- The ranked groups belong to main servers, whose rows stay. -/
theorem distinct_of_outcome {final : Database} (houtcome : Outcome origin final)
    (h : ∀ call ∈ rankCalls (readItems origin),
      DistinctPoints (points? final.serverStats) call) : Distinct origin := by
  intro call hcall
  have hmain : ∀ key, call.filters key.group = true →
      points? final.serverStats key = recalculatedPoints origin key := by
    intro key hfilters
    obtain ⟨⟨year, servers⟩, hentry, hmem⟩ := exists_entry_of_mem_rankCalls hcall
    rw [(mem_updatePositionsForYear hmem).2.1, decide_eq_true_eq] at hfilters
    obtain ⟨profile, hitem⟩ := (mem_affectedServersPerYear hentry _).mp hfilters
    rw [houtcome.points, if_neg (not_mem_mergedServers hconsistent hitem)]
  have href : ∀ group group', call.refGroup group group' = true → group = group' := by
    obtain ⟨entry, _, hmem⟩ := exists_entry_of_mem_rankCalls hcall
    rw [(mem_updatePositionsForYear hmem).2.2]
    exact fun group group' hsame => of_decide_eq_true hsame
  have hranked : ∀ key, Ranked (recalculatedPoints origin) call key →
      Ranked (points? final.serverStats) call key := fun key hkey =>
    hkey.congr href fun other hgroup => hmain other (hgroup ▸ hkey.filters)
  intro key other hkey hother hcategory hgroup hpoints
  apply h call hcall key other (hranked key hkey) (hranked other hother) hcategory hgroup
  rw [hmain key hkey.filters, hmain other hother.filters, hpoints]

end Runs

/-- A run when no server is left to settle changes nothing. -/
theorem eq_of_nothingLeft {db again : Database} (h : mergedServers db = [])
    (hcomplete : Complete db again) : again = db := by
  obtain ⟨ticks, hrun⟩ := hcomplete
  obtain _ | ⟨tick, ticks⟩ := ticks
  · cases hrun
  · obtain ⟨_, hrest⟩ := Run.cons_iff.mp hrun
    have hwork : jobSystem.next ⟨db, .readServers⟩ tick = ⟨db, .finished⟩ := by
      change work tick ⟨db, .readServers⟩ = ⟨db, .finished⟩
      rw [work]
      dsimp only
      rw [h]
    rw [hwork] at hrest
    obtain _ | ⟨tick', ticks⟩ := ticks
    · exact (State.mk.inj (Run.nil_iff.mp hrest)).1.symm
    · obtain ⟨⟨_, hfits⟩, _⟩ := Run.cons_iff.mp hrest
      cases hfits

/-- The same stats, the same merged servers, and the same positions if the points within each
ranked group are distinct. -/
structure SameOutcome (calls : List (RankCall ServerId)) (db db' : Database) : Prop where
  points : ∀ key, points? db.serverStats key = points? db'.serverStats key
  status : ∀ id, (db.servers.find? id).map (fun server => server.mergedStatsAt.isSome) =
    (db'.servers.find? id).map fun server => server.mergedStatsAt.isSome
  positions : (∀ call ∈ calls, DistinctPoints (points? db'.serverStats) call) →
    ∀ key, position? db.serverStats key = position? db'.serverStats key

/-- After any number of runs that were cut off anywhere, a run can get to its end. It then leaves
what a run from the original store leaves, and one more run changes nothing. -/
theorem sameOutcome_of_cutOff {origin db : Database} (hconsistent : Consistent origin)
    (hcutOff : Relation.ReflTransGen CutOff origin db) :
    (∃ final, Complete db final) ∧
      ∀ final, Complete db final →
        (∀ uninterrupted, Complete origin uninterrupted →
          SameOutcome (rankCalls (readItems origin)) final uninterrupted) ∧
        ∀ again, Complete final again → again = final := by
  have hprogress := progress_of_cutOff hconsistent hcutOff
  refine ⟨?_, fun final hcomplete => ?_⟩
  · obtain ⟨ticks, final, hrun⟩ := completes_of_progress hconsistent hprogress
    exact ⟨final, ticks, hrun⟩
  have houtcome := outcome_of_complete hconsistent hprogress hcomplete
  refine ⟨fun uninterrupted hcomplete' => ?_, fun again => eq_of_nothingLeft houtcome.nothingLeft⟩
  have houtcome' := outcome_of_complete hconsistent progress_origin hcomplete'
  constructor
  · intro key
    rw [houtcome.points, houtcome'.points]
  · intro id
    rw [houtcome.status, houtcome'.status]
  · intro hdistinct key
    have hdistinct := distinct_of_outcome hconsistent houtcome' hdistinct
    rw [houtcome.positions hdistinct, houtcome'.positions hdistinct]

section Example

open ServerStatsRace (completed firstMerge)

theorem complete_of_admits {s : State} {now : Time} (hstart : s.job = .readServers)
    (hadmits : jobSystem.Admits s (ticksInOrder now 40 s))
    (hfinished : (completed now s).job.isFinished = true) :
    Complete s.db (completed now s).db := by
  refine ⟨ticksInOrder now 40 s, ?_⟩
  have hrun := Run.of_admits hadmits
  rw [← hstart, ← Job.isFinished_iff.mp hfinished]
  exact hrun

/-- A run is cut off when it has stored the points of the main server, and is started anew. -/
def cutOffRun : State :=
  (ticksInOrder 101 3 firstMerge).foldl jobSystem.next firstMerge

def restartedRun : State := { cutOffRun with job := .readServers }

theorem sameOutcome_of_restartedRun :
    (points? cutOffRun.db.serverStats ⟨2024, .score, 1, 1⟩ = some 10 ∧
      points? cutOffRun.db.serverStats ⟨2024, .score, 1, 2⟩ = some 10) ∧
    SameOutcome (rankCalls (readItems firstMerge.db))
      (completed 102 restartedRun).db
      (completed 101 firstMerge).db := by
  have hconsistent : Consistent firstMerge.db :=
    ⟨by decide +kernel, by decide +kernel⟩
  have hadmits : jobSystem.Admits firstMerge
      (ticksInOrder 101 3 firstMerge) := by decide +kernel
  have hcutOff : CutOff firstMerge.db restartedRun.db :=
    ⟨_, cutOffRun.job, Run.of_admits hadmits⟩
  have hcomplete := @complete_of_admits firstMerge 101 rfl (by decide +kernel)
    (by decide +kernel)
  have hrestarted := @complete_of_admits restartedRun 102 rfl (by decide +kernel)
    (by decide +kernel)
  refine ⟨⟨by decide +kernel, by decide +kernel⟩, ?_⟩
  exact ((sameOutcome_of_cutOff hconsistent (.single hcutOff)).2 _ hrestarted).1 _ hcomplete

end Example

end ServerStatsRestart

end Swat4Stats
