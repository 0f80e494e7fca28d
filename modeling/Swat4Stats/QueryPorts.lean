import Mathlib.Data.List.Sort
import Mathlib.Data.Prod.Lex
import Mathlib.Order.BooleanAlgebra.Basic
import Swat4Stats.ConcurrentQueries

/-!
# The discovery of query ports

The four ports after the join port of every listed server are asked for a status, all in one pool
of tasks whose order is random. A port that answers as the server is a candidate; those of the GS1
listener come first, then those of AdminMod, and among equals the one that answered first.
-/

namespace Swat4Stats

set_option autoImplicit false

open Transition TaskPool TaskPool.Pool

/-- The table of servers, with its column `status_port` apart. -/
structure PortTable where
  db : Database
  statusPort : ServerId → ℕ

namespace ServerManager

/-- The ip and the join port of a server, and the port to ask. -/
abbrev TriAddr := Address × ℕ

structure ProbedPort where
  port : ℕ
  isGs1 : Bool
  isAm : Bool
  deriving DecidableEq, Repr

def queryPorts (server : Server) : List TriAddr :=
  (List.range' (server.port + 1) 4).map fun queryPort => (server.address, queryPort)

/-- The tasks of `_probe_good_query_ports`, before they are shuffled. -/
def queryPortTasks (servers : List Server) : List TriAddr := servers.flatMap queryPorts

def probedPort (addr : TriAddr) (probe : Probe) : Option (Address × ProbedPort) := do
  let status ← probe.bind Schema.serverquerySchema
  if status.hostport ≠ addr.1.2 then
    none
  else
    some (addr.1, {
      port := addr.2
      isGs1 := (status.stats .swatwon).isSome
      isAm := (status.stats .numrounds).isSome })

def probedQueryPorts (results : OrderedDict TriAddr Probe) :
    OrderedDict Address (List ProbedPort) :=
  OrderedDict.collect (results.filterMap fun entry => probedPort entry.1 entry.2)

/-- The tuple that `sorted` compares. -/
def ProbedPort.rank (probed : ProbedPort) : Bool ×ₗ Bool := toLex (probed.isGs1, probed.isAm)

/-- The first of the sorted ports. A sort in reverse order is stable too. -/
def preferredStatusPort (queryPorts : List ProbedPort) : Option ℕ :=
  (queryPorts.insertionSort fun x y => y.rank ≤ x.rank).head?.map ProbedPort.port

def updateStatusPort (t : PortTable) (addr : Address) (port : ℕ) : PortTable :=
  let isUpdated := fun (server : Server) =>
    server.address = addr ∧ t.statusPort server.pk ≠ port
  { t with
    statusPort := fun pk =>
      if (t.db.servers.find? pk).any fun server => isUpdated server then port
      else t.statusPort pk }

/-- The scan, given the calls that were made while the tasks ran. -/
def discoverGoodQueryPorts (calls : List (TriAddr × Probe)) (t : PortTable) : PortTable :=
  (probedQueryPorts (OrderedDict.update [] calls)).foldl
    (fun t entry => (preferredStatusPort entry.2).elim t (updateStatusPort t entry.1)) t

end ServerManager

namespace QueryPorts

open ServerManager Refresh

/-- The ports on which a server answers as itself. -/
def goodPorts (answers : TriAddr → Probe) (server : Server) : List ProbedPort :=
  (queryPorts server).filterMap fun addr => (probedPort addr (answers addr)).map Prod.snd

/-- What the scan makes of the status port of a server. -/
def Prefers (answers : TriAddr → Probe) (server : Server) (before after : ℕ) : Prop :=
  if server.enabled ∧ server.listed ∧ goodPorts answers server ≠ [] then
    ∃ best ∈ goodPorts answers server, after = best.port ∧
      ∀ other ∈ goodPorts answers server, other.rank ≤ best.rank
  else
    after = before

theorem head_insertionSort {ports : List ProbedPort} (h : ports ≠ []) :
    ∃ best ∈ ports, preferredStatusPort ports = some best.port ∧
      ∀ other ∈ ports, other.rank ≤ best.rank := by
  have hsorted := List.pairwise_insertionSort (fun x y : ProbedPort => y.rank ≤ x.rank) ports
  have hperm := List.perm_insertionSort (fun x y : ProbedPort => y.rank ≤ x.rank) ports
  unfold preferredStatusPort
  cases hlist : ports.insertionSort fun x y => y.rank ≤ x.rank with
  | nil => exact absurd (hlist ▸ hperm).nil_eq.symm h
  | cons best rest =>
    rw [hlist] at hsorted hperm
    refine ⟨best, hperm.mem_iff.mp List.mem_cons_self, rfl, fun other hother => ?_⟩
    cases List.mem_cons.mp (hperm.mem_iff.mpr hother) with
    | inl heq => exact heq ▸ le_rfl
    | inr hmem => exact List.rel_of_pairwise_cons hsorted hmem

section Update

variable {t : PortTable} {server : Server}

theorem statusPort_updateStatusPort (hserver : server ∈ t.db.servers.rows) (addr : Address)
    (port : ℕ) : (updateStatusPort t addr port).statusPort server.pk =
      if server.address = addr then port else t.statusPort server.pk := by
  simp only [updateStatusPort, Table.find?_of_mem hserver, Option.any_some]
  obtain haddr | haddr := Decidable.em (server.address = addr)
  · rw [if_pos haddr]
    split
    · rfl
    · rename_i hsame
      simpa [haddr] using hsame
  · rw [if_neg haddr, if_neg (by simp [haddr])]

/-- Addresses are updated one after the other, so the row of a server is written for its own. -/
theorem statusPort_foldl {probed : OrderedDict Address (List ProbedPort)}
    (hserver : server ∈ t.db.servers.rows) (hnodup : (OrderedDict.keys probed).Nodup) :
    (probed.foldl (fun t entry => (preferredStatusPort entry.2).elim t (updateStatusPort t entry.1))
      t).statusPort server.pk =
        ((OrderedDict.get? probed server.address).bind preferredStatusPort).getD
          (t.statusPort server.pk) := by
  induction probed generalizing t with
  | nil => rfl
  | cons entry probed ih =>
    obtain ⟨addr, ports⟩ := entry
    obtain ⟨hhead, hrest⟩ := List.nodup_cons.mp hnodup
    rw [List.foldl_cons]
    have hdb : ((preferredStatusPort ports).elim t (updateStatusPort t addr)).db = t.db := by
      cases preferredStatusPort ports <;> rfl
    rw [ih (by rw [hdb]; exact hserver) hrest]
    obtain rfl | haddr := eq_or_ne server.address addr
    · rw [OrderedDict.get?_eq_none_iff.mpr hhead, OrderedDict.get?_cons_self]
      cases hport : preferredStatusPort ports with
      | none => simp [hport]
      | some port => simp [hport, statusPort_updateStatusPort hserver]
    · have hget : OrderedDict.get? ((addr, ports) :: probed) server.address =
          OrderedDict.get? probed server.address := by
        simp [OrderedDict.get?, haddr.symm]
      rw [hget]
      cases hport : preferredStatusPort ports with
      | none => rfl
      | some port => simp [statusPort_updateStatusPort hserver, haddr]

end Update

section Scan

variable {t : PortTable} {tasks : List TriAddr} {answers : TriAddr → Probe}
  {results : OrderedDict TriAddr Probe}

theorem mem_queryPortTasks {servers : List Server} {addr : TriAddr} :
    addr ∈ queryPortTasks servers ↔ ∃ server ∈ servers, addr ∈ queryPorts server :=
  List.mem_flatMap

theorem fst_of_mem_queryPorts {server : Server} {addr : TriAddr} (h : addr ∈ queryPorts server) :
    addr.1 = server.address := by
  obtain ⟨queryPort, -, rfl⟩ := List.mem_map.mp h
  rfl

theorem nodup_queryPorts (server : Server) : (queryPorts server).Nodup :=
  (List.nodup_range' ..).map fun _ _ h => (Prod.mk.inj h).2

theorem nodup_queryPortTasks (hunique : UniqueAddresses t.db) :
    (queryPortTasks (listed t.db)).Nodup := by
  refine List.nodup_flatMap.mpr ⟨fun server _ => nodup_queryPorts server, ?_⟩
  have hrows : (listed t.db).Nodup := (List.Nodup.of_map _ t.db.servers.nodup).filter _
  refine hrows.imp_of_mem fun {x y} hx hy hne => ?_
  intro addr hax hay
  refine hne (hunique x (List.mem_filter.mp hx).1 y (List.mem_filter.mp hy).1 ?_)
  exact (fst_of_mem_queryPorts hax).symm.trans (fst_of_mem_queryPorts hay)

theorem address_of_probedPort {addr : TriAddr} {probe : Probe} {found : Address × ProbedPort}
    (h : probedPort addr probe = some found) : found.1 = addr.1 := by
  unfold probedPort at h
  obtain ⟨status, -, h⟩ := Option.bind_eq_some_iff.mp h
  split at h
  · cases h
  · cases h
    rfl

/-- The candidates for an address are the good ports of the listed server that has it. -/
theorem mem_candidates_iff (hunique : UniqueAddresses t.db)
    (htasks : tasks.Perm (queryPortTasks (listed t.db)))
    (hresults : results.Perm (tasks.map fun addr => (addr, answers addr))) {server : Server}
    (hserver : server ∈ t.db.servers.rows) (port : ProbedPort) :
    (server.address, port) ∈ results.filterMap (fun entry => probedPort entry.1 entry.2) ↔
      server ∈ listed t.db ∧ port ∈ goodPorts answers server := by
  simp only [List.mem_filterMap, hresults.mem_iff, List.mem_map, htasks.mem_iff,
    mem_queryPortTasks, goodPorts]
  constructor
  · rintro ⟨-, ⟨addr, ⟨other, hother, haddr⟩, rfl⟩, hprobed⟩
    have heq : other = server := by
      apply hunique other (List.mem_filter.mp hother).1 server hserver
      rw [← fst_of_mem_queryPorts haddr, ← address_of_probedPort hprobed]
    subst heq
    exact ⟨hother, addr, haddr, by rw [hprobed]; rfl⟩
  · rintro ⟨hlisted, addr, haddr, hprobed⟩
    obtain ⟨found, hfound, rfl⟩ := Option.map_eq_some_iff.mp hprobed
    refine ⟨(addr, answers addr), ⟨addr, ⟨server, hlisted, haddr⟩, rfl⟩, ?_⟩
    rw [hfound, ← fst_of_mem_queryPorts haddr, ← address_of_probedPort hfound]

theorem prefers_discoverGoodQueryPorts {calls : List (TriAddr × Probe)}
    (hunique : UniqueAddresses t.db) (htasks : tasks.Perm (queryPortTasks (listed t.db)))
    (hcalls : calls.Perm (tasks.map fun addr => (addr, answers addr))) {server : Server}
    (hserver : server ∈ t.db.servers.rows) :
    Prefers answers server (t.statusPort server.pk)
      ((discoverGoodQueryPorts calls t).statusPort server.pk) := by
  have hkeys : (OrderedDict.keys calls).Nodup := by
    have hmap := hcalls.map Prod.fst
    rw [show (tasks.map fun addr => (addr, answers addr)).map Prod.fst = tasks from
      OrderedDict.keys_map tasks answers] at hmap
    exact hmap.nodup_iff.mpr (htasks.nodup_iff.mpr (nodup_queryPortTasks hunique))
  let items := calls.filterMap fun entry => probedPort entry.1 entry.2
  let ports := (items.filter fun item => item.1 = server.address).map Prod.snd
  have hafter : (discoverGoodQueryPorts calls t).statusPort server.pk =
      ((if server.address ∈ items.map Prod.fst then some ports else none).bind
        preferredStatusPort).getD (t.statusPort server.pk) := by
    rw [discoverGoodQueryPorts, OrderedDict.update_of_nodup (by rwa [List.nil_append]),
      List.nil_append, probedQueryPorts,
      statusPort_foldl hserver (OrderedDict.nodup_keys_collect _), OrderedDict.get?_collect]
    congr
  have hmem : ∀ port, port ∈ ports ↔ server ∈ listed t.db ∧ port ∈ goodPorts answers server := by
    intro port
    rw [← mem_candidates_iff hunique htasks hcalls hserver]
    simp only [ports, List.mem_map, List.mem_filter, decide_eq_true_eq]
    constructor
    · rintro ⟨⟨addr, found⟩, ⟨hitem, rfl⟩, rfl⟩
      exact hitem
    · exact fun hitem => ⟨_, ⟨hitem, rfl⟩, rfl⟩
  have hlisted : server ∈ listed t.db ↔ server.enabled ∧ server.listed := by
    simp [listed, hserver]
  rw [Prefers, hafter]
  split
  · rename_i hgood
    obtain ⟨port, hport⟩ := List.exists_mem_of_ne_nil _ hgood.2.2
    have hin := (hmem port).mpr ⟨hlisted.mpr ⟨hgood.1, hgood.2.1⟩, hport⟩
    have haddr : server.address ∈ items.map Prod.fst := by
      obtain ⟨item, hitem, -⟩ := List.mem_map.mp hin
      obtain ⟨hitem, heq⟩ := List.mem_filter.mp hitem
      exact List.mem_map.mpr ⟨item, hitem, of_decide_eq_true heq⟩
    obtain ⟨best, hbest, hpreferred, hmax⟩ := head_insertionSort (List.ne_nil_of_mem hin)
    rw [if_pos haddr, Option.bind_some, hpreferred]
    refine ⟨best, ((hmem best).mp hbest).2, rfl, fun other hother => hmax other ?_⟩
    exact (hmem other).mpr ⟨hlisted.mpr ⟨hgood.1, hgood.2.1⟩, hother⟩
  · rename_i hbad
    have hnil : ports = [] := by
      by_contra hne
      obtain ⟨port, hport⟩ := List.exists_mem_of_ne_nil _ hne
      obtain ⟨hin, hgood⟩ := (hmem port).mp hport
      exact hbad ⟨(hlisted.mp hin).1, (hlisted.mp hin).2, List.ne_nil_of_mem hgood⟩
    rw [hnil]
    split <;> rfl

end Scan

/-- After a scan, in whatever order its tasks ran and answered, the status port of a listed server
that answers as itself on one of the four ports is such a port, and none of them is better. All
other servers keep their port. -/
theorem discoverGoodQueryPorts_prefers {t : PortTable} (hunique : UniqueAddresses t.db)
    {tasks : List TriAddr} (htasks : tasks.Perm (queryPortTasks (listed t.db)))
    {concurrency : Option ℕ} {events : List (Event TriAddr Probe)} {p : Pool TriAddr Probe}
    (h : Run system (gather tasks concurrency) events p) (hdone : remaining p = 0) :
    ∃ answers : TriAddr → Probe,
      (∀ addr probe, .finish addr probe ∈ events ↔ addr ∈ tasks ∧ probe = answers addr) ∧
      ∀ server ∈ t.db.servers.rows, Prefers answers server (t.statusPort server.pk)
        ((discoverGoodQueryPorts p.called t).statusPort server.pk) := by
  have hnodup := htasks.nodup_iff.mpr (nodup_queryPortTasks hunique)
  obtain ⟨answers, hanswers, hcalled⟩ := exists_outcomes hnodup h hdone
  exact ⟨answers, hanswers, fun server hserver =>
    prefers_discoverGoodQueryPorts hunique htasks hcalled hserver⟩

section Example

open ServerSearch (answer)

def onePort : PortTable where
  db := { Database.empty with servers := ⟨[firstServer], by decide⟩ }
  statusPort _ := 10481

def shuffledPorts : List TriAddr :=
  [10483, 10481, 10484, 10482].map fun queryPort => (firstServer.address, queryPort)

/-- Two queries at a time, of which the last one started is answered. -/
def lastAnswers : List (Event TriAddr Probe) :=
  [.start, .start, .finish (firstServer.address, 10481) none, .start,
    .finish (firstServer.address, 10483) none, .start,
    .finish (firstServer.address, 10482) (some (answer "Myt Team")),
    .finish (firstServer.address, 10484) none]

theorem onePort_prefers :
    ∃ answers : TriAddr → Probe,
      answers (firstServer.address, 10482) = some (answer "Myt Team") ∧
      Prefers answers firstServer 10481
        ((discoverGoodQueryPorts
          (lastAnswers.foldl system.next (gather shuffledPorts (some 2))).called
          onePort).statusPort 1) := by
  have hadmits : system.Admits (gather shuffledPorts (some 2)) lastAnswers := by decide
  have hunique : UniqueAddresses onePort.db := by
    unfold UniqueAddresses
    decide
  obtain ⟨answers, hanswers, hprefers⟩ :=
    discoverGoodQueryPorts_prefers hunique (by decide) (Run.of_admits hadmits) (by decide)
  refine ⟨answers, ?_, hprefers firstServer (by decide)⟩
  exact ((hanswers _ (some (answer "Myt Team"))).mp (by simp [lastAnswers])).2.symm

end Example

end QueryPorts

end Swat4Stats
