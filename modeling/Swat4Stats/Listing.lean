import Swat4Stats.Refresh

/-!
# Listing and unlisting

Servers that keep failing are taken off the list together with their cached statuses, and put back
when they are seen again, with the counter at zero.
-/

namespace Swat4Stats

set_option autoImplicit false

open Tx

namespace ServerManager

/-- With the value of `TRACKER_STATUS_TOLERATED_FAILURES`. -/
def getListedServersWithExceededFailures (toleratedFailures : ℕ) (db : Database) : List Server :=
  db.servers.rows.filter fun s => s.listed ∧ toleratedFailures ≤ s.failures

def relistServers (serverIds : List ServerId) : DbTx Unit :=
  write fun db => { db with
    servers := db.servers.update (fun s => s.pk ∈ serverIds ∧ s.listed = false)
      (fun s => { s with listed := true, failures := 0 }) fun _ => rfl }

def unlistServers (serverIds : List ServerId) : DbTx Unit :=
  write fun db => { db with
    servers := db.servers.update (fun s => s.pk ∈ serverIds ∧ s.listed)
      (fun s => { s with listed := false }) fun _ => rfl }

/-- `hdel` of the addresses. -/
def deleteStatus (redis : OrderedDict Address ServerStatus) (servers : List Server) :
    OrderedDict Address ServerStatus :=
  servers.foldl (fun redis server => OrderedDict.erase redis server.address) redis

def withRelisting (serverIds : List ServerId) (s : Server) : Server :=
  if s.pk ∈ serverIds ∧ s.listed = false then { s with listed := true, failures := 0 } else s

def withUnlisting (serverIds : List ServerId) (s : Server) : Server :=
  if s.pk ∈ serverIds ∧ s.listed then { s with listed := false } else s

section Rows

variable {serverIds : List ServerId} {toleratedFailures : ℕ} {db : Database} {row : Server}
  {redis : OrderedDict Address ServerStatus} {servers : List Server}

theorem mem_getListedServersWithExceededFailures :
    row ∈ getListedServersWithExceededFailures toleratedFailures db ↔
      row ∈ db.servers.rows ∧ row.listed = true ∧ toleratedFailures ≤ row.failures := by
  simp only [getListedServersWithExceededFailures, List.mem_filter, decide_eq_true_eq]

theorem run_relistServers (serverIds : List ServerId) (db : Database) :
    ∃ servers : Table Server Server.pk,
      (relistServers serverIds).run db = (.ok (), { db with servers }) ∧
        servers.rows = db.servers.rows.map (withRelisting serverIds) := by
  simp only [relistServers, run_write]
  refine ⟨_, rfl, ?_⟩
  simp only [Table.rows_update, decide_eq_true_eq]
  rfl

theorem run_unlistServers (serverIds : List ServerId) (db : Database) :
    ∃ servers : Table Server Server.pk,
      (unlistServers serverIds).run db = (.ok (), { db with servers }) ∧
        servers.rows = db.servers.rows.map (withUnlisting serverIds) := by
  simp only [unlistServers, run_write]
  refine ⟨_, rfl, ?_⟩
  simp only [Table.rows_update, decide_eq_true_eq]
  rfl

@[simp] theorem withRelisting_pk : (withRelisting serverIds row).pk = row.pk := by
  unfold withRelisting
  split
  · rfl
  · rfl

theorem withRelisting_listed (h : row.pk ∈ serverIds) :
    (withRelisting serverIds row).listed = true := by
  unfold withRelisting
  split
  · rfl
  · rename_i hlisted
    simpa using fun hunlisted => hlisted ⟨h, hunlisted⟩

@[simp] theorem withUnlisting_pk : (withUnlisting serverIds row).pk = row.pk := by
  unfold withUnlisting
  split
  · rfl
  · rfl

@[simp] theorem withUnlisting_failures :
    (withUnlisting serverIds row).failures = row.failures := by
  unfold withUnlisting
  split
  · rfl
  · rfl

theorem withUnlisting_listed :
    (withUnlisting serverIds row).listed = true ↔ row.listed = true ∧ row.pk ∉ serverIds := by
  unfold withUnlisting
  split
  · rename_i h
    simp [h.1]
  · rename_i h
    exact ⟨fun hlisted => ⟨hlisted, fun hmem => h ⟨hmem, hlisted⟩⟩, And.left⟩

theorem nodup_deleteStatus (h : (OrderedDict.keys redis).Nodup) :
    (OrderedDict.keys (deleteStatus redis servers)).Nodup := by
  induction servers generalizing redis with
  | nil => exact h
  | cons server servers ih => exact ih (OrderedDict.nodup_keys_erase h)

theorem get?_deleteStatus (h : (OrderedDict.keys redis).Nodup) (address : Address) :
    OrderedDict.get? (deleteStatus redis servers) address =
      if address ∈ servers.map Server.address then none else OrderedDict.get? redis address := by
  induction servers generalizing redis with
  | nil => rfl
  | cons server servers ih =>
    rw [deleteStatus, List.foldl_cons, List.map_cons]
    apply (ih (OrderedDict.nodup_keys_erase h)).trans
    obtain heq | hne := eq_or_ne server.address address
    · rw [heq, OrderedDict.get?_erase_self h, ite_self, if_pos List.mem_cons_self]
    · rw [OrderedDict.get?_erase_of_ne hne]
      simp only [List.mem_cons, hne.symm, false_or]

end Rows

end ServerManager

namespace Tasks

open ServerManager

def unlistFailedServers (toleratedFailures : ℕ) (s : Store) : Store :=
  let offlineServers := getListedServersWithExceededFailures toleratedFailures s.db
  if offlineServers = [] then
    s
  else
    ⟨((unlistServers (offlineServers.map Server.pk)).run s.db).2,
      deleteStatus s.redis offlineServers⟩

/-- Without offline servers there would be nothing to write either. -/
theorem unlistFailedServers_eq (toleratedFailures : ℕ) (s : Store) :
    (unlistFailedServers toleratedFailures s).db.servers.rows = s.db.servers.rows.map (withUnlisting
        ((getListedServersWithExceededFailures toleratedFailures s.db).map Server.pk)) ∧
      (unlistFailedServers toleratedFailures s).redis =
        deleteStatus s.redis (getListedServersWithExceededFailures toleratedFailures s.db) := by
  unfold unlistFailedServers
  obtain hnil | hne := eq_or_ne (getListedServersWithExceededFailures toleratedFailures s.db) []
  · rw [if_pos hnil, hnil]
    refine ⟨((List.map_congr_left fun row _ => ?_).trans (List.map_id _)).symm, rfl⟩
    exact if_neg fun h => List.not_mem_nil h.1
  · rw [if_neg hne]
    obtain ⟨servers, hrun, hrows⟩ := run_unlistServers
      ((getListedServersWithExceededFailures toleratedFailures s.db).map Server.pk) s.db
    refine ⟨?_, rfl⟩
    rw [hrun]
    exact hrows

end Tasks

end Swat4Stats
