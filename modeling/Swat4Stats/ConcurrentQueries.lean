import Swat4Stats.Library.TaskPool
import Swat4Stats.Refresh

/-!
# Asking many servers at once

`fetch_status` asks all servers it is given in tasks of their own, so many of them at a time as
the semaphore lets through. Who answers first is up to the network. The dictionary of the results
is laid out before the first question, and the refresh of the listed servers reads it once the last
task has called back: it cannot tell in which order the answers came.
-/

namespace Swat4Stats

set_option autoImplicit false

open Transition TaskPool TaskPool.Pool

namespace ServerManager

/-- The keys that instances make: of those with one primary key, which are equal, the first. -/
def instances : List Server → List Server
  | [] => []
  | server :: servers =>
    server :: (instances servers).filter fun other => other.pk ≠ server.pk

/-- `OrderedDict((server, None) for server in servers)` -/
def unanswered (servers : List Server) : OrderedDict Server (Option Probe) :=
  OrderedDict.update [] ((instances servers).map fun server => (server, none))

/-- `run_many`, given a task for each key of the result. -/
def statusTasks (servers : List Server) (concurrency : Option ℕ) : Pool Server Probe :=
  gather (OrderedDict.keys (unanswered servers)) concurrency

/-- The result once the callbacks have been called, in whatever order that was. -/
def fetchStatus (servers : List Server) (calls : List (Server × Probe)) :
    OrderedDict Server (Option Probe) :=
  OrderedDict.update (unanswered servers) (calls.map fun call => (call.1, some call.2))

structure RefreshResult where
  withStatus : List (Server × ServerStatus)
  withErrors : List Server
  redis : OrderedDict Address ServerStatus

/-- Where there is no result, the schema is given `None`, which is no dictionary. -/
def refreshStatus (result : OrderedDict Server (Option Probe))
    (redis : OrderedDict Address ServerStatus) : RefreshResult :=
  let outcomes := result.map fun entry => (entry.1, refreshed entry.1 entry.2.join)
  let withStatus := outcomes.filterMap fun outcome =>
    outcome.2.status?.map fun status => (outcome.1, status)
  { withStatus
    withErrors := (outcomes.filter fun outcome => outcome.2.isError).map Prod.fst
    redis := storeStatuses redis withStatus }

end ServerManager

namespace Tasks

open ServerManager

/-- The task, given the calls that were made while `fetch_status` ran. -/
def refreshListedServersAfter (outside : External) (now : Time) (calls : List (Server × Probe))
    (s : Store) : Except (Failure TrackerError) Unit × Store :=
  let refresh := refreshStatus (fetchStatus (listed s.db) calls) s.redis
  let sent := (sendSignals outside now refresh.withStatus refresh.withErrors).run s.db
  (sent.1, ⟨sent.2, refresh.redis⟩)

end Tasks

namespace ConcurrentQueries

open ServerManager Tasks Refresh
open ServerSearch (answer)

variable {servers : List Server} {concurrency : Option ℕ} {events : List (Event Server Probe)}
  {p : Pool Server Probe}

theorem nodup_tasks : (OrderedDict.keys (unanswered servers)).Nodup :=
  OrderedDict.nodup_keys_update (d := []) List.nodup_nil

theorem pairwise_instances (servers : List Server) :
    (instances servers).Pairwise fun server other => server.pk ≠ other.pk := by
  induction servers with
  | nil => exact .nil
  | cons server servers ih =>
    refine .cons (fun other hother => ?_) (ih.filter _)
    exact (of_decide_eq_true (List.mem_filter.mp hother).2).symm

theorem instances_of_nodup (h : (servers.map Server.pk).Nodup) : instances servers = servers := by
  induction servers with
  | nil => rfl
  | cons server servers ih =>
    obtain ⟨hfresh, hservers⟩ := List.nodup_cons.mp h
    rw [instances, ih hservers, List.filter_eq_self.mpr]
    intro other hother
    rw [decide_eq_true_eq]
    exact fun hpk => hfresh (hpk ▸ List.mem_map_of_mem hother)

/-- The result has one key for each primary key. -/
theorem keys_unanswered (servers : List Server) :
    OrderedDict.keys (unanswered servers) = instances servers := by
  have hkeys := OrderedDict.keys_map (instances servers) fun _ => (none : Option Probe)
  have hnodup : (instances servers).Nodup :=
    (pairwise_instances servers).imp fun hpk heq => hpk (congrArg Server.pk heq)
  rw [unanswered, OrderedDict.update_of_nodup (by rwa [List.nil_append, hkeys])]
  exact hkeys

theorem fetchStatus_of_perm {answers : Server → Probe} {calls : List (Server × Probe)}
    (h : calls.Perm ((OrderedDict.keys (unanswered servers)).map fun server =>
      (server, answers server))) :
    fetchStatus servers calls =
      (OrderedDict.keys (unanswered servers)).map
        fun server => (server, some (answers server)) := by
  apply OrderedDict.update_of_perm nodup_tasks
  have hperm := h.map fun call => (call.1, some call.2)
  rwa [List.map_map] at hperm

theorem refreshStatus_answers (answers : ServerId → Probe)
    (redis : OrderedDict Address ServerStatus) :
    refreshStatus (servers.map fun server => (server, some (answers server.pk))) redis =
      ⟨withStatus answers servers, withErrors answers servers,
        storeStatuses redis (withStatus answers servers)⟩ := by
  have hstatus : ((servers.map fun server => (server, some (answers server.pk))).map
      fun entry => (entry.1, refreshed entry.1 entry.2.join)).filterMap
      (fun outcome => outcome.2.status?.map fun status => (outcome.1, status)) =
      withStatus answers servers := by
    rw [List.map_map, List.filterMap_map]
    rfl
  have herrors : (((servers.map fun server => (server, some (answers server.pk))).map
      fun entry => (entry.1, refreshed entry.1 entry.2.join)).filter
      fun outcome => outcome.2.isError).map Prod.fst = withErrors answers servers := by
    rw [List.map_map, List.filter_map, List.map_map]
    exact List.map_id _
  simp only [refreshStatus, hstatus, herrors]

/-- At any moment of a run of `fetch_status` no more queries are under way than the limit allows,
servers are asked in the order they are given in, and whatever the answers to come are, the run
reaches its end, where each server has called back once and has its place in the result. -/
theorem fetchStatus_serves_all (h : Run system (statusTasks servers concurrency) events p) :
    (∀ n, concurrency = some (n + 1) → p.running.length ≤ n + 1) ∧
    p.acquired <+: OrderedDict.keys (unanswered servers) ∧
    ∀ answers : Server → Probe, ∃ events' q, Run system p events' q ∧ remaining q = 0 ∧
      (∀ server probe, .finish server probe ∈ events' → probe = answers server) ∧
      (events ++ events').length = 2 * (OrderedDict.keys (unanswered servers)).length ∧
      (q.called.map Prod.fst).Perm (OrderedDict.keys (unanswered servers)) ∧
      OrderedDict.keys (fetchStatus servers q.called) = OrderedDict.keys (unanswered servers) := by
  have hinv := invariant_run h
  refine ⟨fun n hn => length_running_le h (by rw [hn]; rfl), ?_, fun answers => ?_⟩
  · refine ⟨p.waiting ++ p.created, ?_⟩
    rw [← List.append_assoc]
    exact hinv.inOrder
  · obtain ⟨events', q, hrest, hdone, hanswers⟩ := hinv.completes answers
    have hrun := h.append hrest
    have hperm := called_perm hrun hdone
    refine ⟨events', q, hrest, hdone, hanswers, ?_, hperm, ?_⟩
    · have hlength := length_add_remaining hrun
      rw [hdone] at hlength
      simpa [statusTasks, gather, remaining] using hlength
    · refine OrderedDict.keys_update_of_subset fun server hserver => hperm.mem_iff.mp ?_
      simpa [OrderedDict.keys] using hserver

def secondServer : Server := { pk := 2, ip := 8, port := 10480, listed := true }

def bothStarted : List (Event Server Probe) := [.start, .start]

theorem oneAtATime_serves_all :
    ∃ events p, Run system (bothStarted.foldl system.next
        (statusTasks [firstServer, secondServer] (some 1))) events p ∧
      (bothStarted ++ events).length = 4 := by
  have hadmits : system.Admits (statusTasks [firstServer, secondServer] (some 1)) bothStarted := by
    decide
  obtain ⟨events, p, hrest, -, -, hlength, -⟩ :=
    (fetchStatus_serves_all (Run.of_admits hadmits)).2.2 fun _ => none
  exact ⟨events, p, hrest, hlength⟩

/-- The refresh of the listed servers comes to the same, however the answers of the servers are
interleaved: it is the refresh in which each server answers what its query came to. -/
theorem refreshListedServersAfter_eq {s : Store} (outside : External) (now : Time)
    (h : Run system (statusTasks (listed s.db) concurrency) events p) (hdone : remaining p = 0) :
    ∃ answers : ServerId → Probe,
      (∀ server probe, .finish server probe ∈ events ↔
        server ∈ listed s.db ∧ probe = answers server.pk) ∧
      refreshListedServersAfter outside now p.called s =
        refreshListedServers outside now answers s := by
  have hrows : ∀ server ∈ listed s.db, s.db.servers.find? server.pk = some server :=
    fun server hserver => Table.find?_of_mem (List.mem_filter.mp hserver).1
  have hnodup : ((listed s.db).map Server.pk).Nodup :=
    s.db.servers.nodup.sublist (List.filter_sublist.map _)
  have hkeys := (keys_unanswered (listed s.db)).trans (instances_of_nodup hnodup)
  obtain ⟨outcomes, houtcomes, hcalled⟩ := exists_outcomes nodup_tasks h hdone
  let answers : ServerId → Probe := fun pk => (s.db.servers.find? pk).elim none outcomes
  have hanswers : ∀ server ∈ listed s.db, outcomes server = answers server.pk :=
    fun server hserver => by simp only [answers, hrows server hserver, Option.elim_some]
  refine ⟨answers, fun server probe => ?_, ?_⟩
  · rw [houtcomes, hkeys]
    exact and_congr_right fun hserver => by rw [hanswers server hserver]
  · have hfetch : fetchStatus (listed s.db) p.called =
        (listed s.db).map fun server => (server, some (answers server.pk)) := by
      rw [fetchStatus_of_perm hcalled, hkeys]
      exact List.map_congr_left fun server hserver => by rw [hanswers server hserver]
    unfold refreshListedServersAfter refreshListedServers
    rw [hfetch, refreshStatus_answers]

/-- The second server answers first. -/
def secondAnswersFirst : List (Event Server Probe) :=
  bothStarted ++ [.finish secondServer (some (answer "Myt Team")), .finish firstServer none]

theorem refreshListedServersAfter_secondFirst :
    ∃ answers : ServerId → Probe, answers 1 = none ∧
      refreshListedServersAfter plainOutside 5
          [(secondServer, some (answer "Myt Team")), (firstServer, none)]
          twoListed =
        refreshListedServers plainOutside 5 answers twoListed := by
  have hadmits : system.Admits (statusTasks (listed twoListed.db) none) secondAnswersFirst := by
    decide
  obtain ⟨answers, hanswers, heq⟩ :=
    refreshListedServersAfter_eq plainOutside 5 (Run.of_admits hadmits) (by decide)
  refine ⟨answers, ?_, heq⟩
  exact ((hanswers firstServer none).mp (by simp [secondAnswersFirst])).2.symm

end ConcurrentQueries

end Swat4Stats
