import Swat4Stats.Library.OrderedDict
import Swat4Stats.Library.Watermark
import Swat4Stats.PlayerNames
import Swat4Stats.ServerMerge
import Swat4Stats.StatusSchema

/-!
# Servers

How a hostname enters the store and its search vector follows, the counter of failed queries, the
receivers of the signals that a refresh and a saved game send, and the serializer that creates or
relists a server for the API.
-/

namespace Swat4Stats

set_option autoImplicit false

open Tx Watermark

namespace ServerManager

def requireSearchUpdate (server : Server) : Bool :=
  isBehind server.hostnameUpdatedAt server.searchUpdatedAt

def updateSearchVector (now : Time) (serverIds : List ServerId) : DbTx Unit := atomic do
  write fun db => { db with
    servers := db.servers.update (fun s => s.pk ∈ serverIds)
      (fun s => { s with search := some (serverSearchVector s.hostnameClean) }) fun _ => rfl }
  write fun db => { db with
    servers := db.servers.update (fun s => s.pk ∈ serverIds)
      (fun s => { s with searchUpdatedAt := some now }) fun _ => rfl }

/-- `max_length` of `hostname` and of `hostname_clean`. -/
def hostnameMaxLength : ℕ := 256

/-- A hostname with its clean form, as both columns get them. -/
structure Hostname where
  hostname : Text
  hostnameClean : Text

def Hostname.of (outside : External) (hostname : Text) : Hostname :=
  ⟨hostname, forceCleanName outside hostname⟩

def Hostname.Fits (name : Hostname) : Prop :=
  FitsColumn hostnameMaxLength name.hostname ∧ FitsColumn hostnameMaxLength name.hostnameClean

instance (name : Hostname) : Decidable name.Fits := inferInstanceAs (Decidable (_ ∧ _))

/-- `bulk_update` of both columns is one statement, which one value that does not fit fails. -/
def bulkUpdateHostnames (updates : List (ServerId × Hostname)) : DbTx Unit :=
  statement fun db =>
    if ∀ entry ∈ updates, entry.2.Fits then
      .ok ((), { db with
        servers := db.servers.update (fun s => s.pk ∈ updates.map Prod.fst)
          (fun s => { s with
            hostname := (updates.lookup s.pk).map Hostname.hostname
            hostnameClean := (updates.lookup s.pk).map Hostname.hostnameClean }) fun _ => rfl })
    else
      .error (.dataError "hostname")

def updateHostnames (outside : External) (now : Time) (hostnameUpdates : List (Server × Text)) :
    DbTx Unit := atomic do
  let serversToUpdate := hostnameUpdates.map fun update =>
    (update.1.pk, Hostname.of outside update.2)
  bulkUpdateHostnames serversToUpdate
  write fun db => { db with
    servers := db.servers.update (fun s => s.pk ∈ serversToUpdate.map Prod.fst)
      (fun s => { s with hostnameUpdatedAt := some now }) fun _ => rfl }

/-- The greatest value of the column `failures`, a `PositiveSmallIntegerField`. -/
def maxFailures : ℕ := 32767

/-- One counter that its column does not hold fails the statement. -/
def incrementQueryFailures (serverIds : List ServerId) : DbTx Unit :=
  statement fun db =>
    if ∀ s ∈ db.servers.rows, s.pk ∈ serverIds → s.listed = true → s.failures < maxFailures then
      .ok ((), { db with
        servers := db.servers.update (fun s => s.pk ∈ serverIds ∧ s.listed)
          (fun s => { s with failures := s.failures + 1 }) fun _ => rfl })
    else
      .error (.dataError "failures")

/-- With `listed=True` as the extra condition. -/
def resetQueryFailures (serverIds : List ServerId) : DbTx Unit :=
  write fun db => { db with
    servers := db.servers.update (fun s => s.pk ∈ serverIds ∧ 0 < s.failures ∧ s.listed)
      (fun s => { s with failures := 0 }) fun _ => rfl }

end ServerManager

namespace Signals

def updateLiveServersHostnames (outside : External) (now : Time)
    (servers : List (Server × ServerStatus)) : DbTx Unit :=
  let newHostnamesForServers := (servers.filter fun live =>
    -- don't update the hostname if it's the same
    live.1.hostname ≠ some live.2.hostname).map fun live => (live.1, live.2.hostname)
  if newHostnamesForServers = [] then
    pure ()
  else
    ServerManager.updateHostnames outside now newHostnamesForServers

def resetServerFailureCount (servers : List (Server × ServerStatus)) : DbTx Unit :=
  ServerManager.resetQueryFailures (servers.map fun live => live.1.pk)

def incFailuresForFailedServers (servers : List Server) : DbTx Unit :=
  ServerManager.incrementQueryFailures (servers.map Server.pk)

def changeHostnameForStreamingServer (outside : External) (now : Time) (server : Server)
    (hostname : Text) : DbTx Unit :=
  if hostname ≠ [] ∧ server.hostname ≠ some hostname then
    ServerManager.updateHostnames outside now [(server, hostname)]
  else
    pure ()

end Signals

/-- What a query for the status ends with: `none` for an exception. -/
abbrev Probe := Option PyValue

namespace ServerCreateSerializer

/-- The attributes after validation; `listed` is true and `failures` zero in all of them. -/
structure Attrs where
  «instance» : Option Server
  ip : IPv4
  port : ℕ
  status : ServerStatus
  name : ServerManager.Hostname

def _validateInstance (ip : IPv4) (port : ℕ) : DbTx (Option Server) := do
  let found ← read fun db => db.servers.rows.filter fun s => s.ip = ip ∧ s.port = port
  match found with
  | [] => pure none
  | [server] =>
    if server.listed then
      raise (.apiError "The specified server already exists")
    else
      pure (some server)
  | _ => raise .multipleObjectsReturned

/-- The status of the server, if it answers and reports the port that was asked for. -/
def probedStatus (port : ℕ) (probe : Probe) : Option ServerStatus :=
  (probe.bind Schema.serverquerySchema).filter fun status => status.hostport = port

def validate (outside : External) (ip : IPv4) (port : ℕ) (probe : Probe) : DbTx Attrs := do
  let «instance» ← _validateInstance ip port
  match probedStatus port probe with
  | none => raise (.apiError s!"Ensure the server is running at port {port}")
  | some status =>
    pure { «instance», ip, port, status, name := ServerManager.Hostname.of outside status.hostname }

/-- The instance with the validated attributes set on it. -/
def Attrs.apply (attrs : Attrs) (server : Server) : Server :=
  { server with
    ip := attrs.ip
    port := attrs.port
    listed := true
    failures := 0
    hostname := some attrs.name.hostname
    hostnameClean := some attrs.name.hostnameClean }

/-- `instance.save()` without `update_fields` writes every column. -/
def saveServer (server : Server) : DbTx Unit :=
  write fun db => { db with
    servers := db.servers.update (fun s => s.pk = server.pk) (fun s => { server with pk := s.pk })
      fun _ => rfl }

def createServer (attrs : Attrs) : DbTx Unit :=
  statement fun db =>
    if ∃ s ∈ db.servers.rows, s.ip = attrs.ip ∧ s.port = attrs.port then
      .error (.integrityError "tracker_server_ip_port_key")
    else
      .ok ((), { db with
        servers := db.servers.create
          (fun pk => attrs.apply { pk, ip := attrs.ip, port := attrs.port }) fun _ => rfl })

def create (attrs : Attrs) : DbTx Unit := atomic do
  if ¬ (1 ≤ attrs.port ∧ attrs.port ≤ 65535) then
    raise (.valueError "Port number must be between 1 and 65535 inclusive.")
  else if ¬ attrs.name.Fits then
    raise (.dataError "hostname")
  else
    match attrs.instance with
    | none => createServer attrs
    | some server => saveServer (attrs.apply server)

end ServerCreateSerializer

namespace ServerManager

theorem run_updateSearchVector (now : Time) (serverIds : List ServerId) (db : Database) :
    ∃ servers : Table Server Server.pk,
      (updateSearchVector now serverIds).run db = (.ok (), { db with servers }) ∧
        servers.rows = db.servers.rows.map fun s =>
          if s.pk ∈ serverIds then
            { s with
              search := some (serverSearchVector s.hostnameClean)
              searchUpdatedAt := some now }
          else s := by
  simp only [updateSearchVector, run_atomic, run_bind, run_write]
  refine ⟨_, rfl, ?_⟩
  refine (Table.rows_update_update ?_).trans ?_
  · exact fun _ hmem => hmem
  · simp only [decide_eq_true_eq]

/-- A server after an update of hostnames. -/
def withHostname (now : Time) (updates : List (ServerId × Hostname)) (s : Server) : Server :=
  match updates.lookup s.pk with
  | some name =>
    { s with
      hostname := some name.hostname
      hostnameClean := some name.hostnameClean
      hostnameUpdatedAt := some now }
  | none => s

def namesOf (outside : External) (hostnameUpdates : List (Server × Text)) :
    List (ServerId × Hostname) :=
  hostnameUpdates.map fun update => (update.1.pk, Hostname.of outside update.2)

theorem run_updateHostnames (outside : External) (now : Time)
    (hostnameUpdates : List (Server × Text)) (db : Database) :
    (¬ (∀ entry ∈ namesOf outside hostnameUpdates, entry.2.Fits) ∧
      (updateHostnames outside now hostnameUpdates).run db =
        (.error (.raised (.dataError "hostname")), db)) ∨
    ((∀ entry ∈ namesOf outside hostnameUpdates, entry.2.Fits) ∧
      ∃ servers : Table Server Server.pk,
        (updateHostnames outside now hostnameUpdates).run db = (.ok (), { db with servers }) ∧
          servers.rows = db.servers.rows.map
            (withHostname now (namesOf outside hostnameUpdates))) := by
  have hnames : (hostnameUpdates.map fun update =>
      (update.1.pk, Hostname.of outside update.2)) = namesOf outside hostnameUpdates := rfl
  simp only [updateHostnames, bulkUpdateHostnames, run_atomic, run_bind, run_statement, hnames]
  obtain hfits | hfits := Decidable.em (∀ entry ∈ namesOf outside hostnameUpdates, entry.2.Fits)
  · refine .inr ⟨hfits, ?_⟩
    rw [if_pos hfits]
    refine ⟨(db.servers.update (fun s => s.pk ∈ (namesOf outside hostnameUpdates).map Prod.fst)
      (fun s => { s with
        hostname := ((namesOf outside hostnameUpdates).lookup s.pk).map Hostname.hostname
        hostnameClean := ((namesOf outside hostnameUpdates).lookup s.pk).map
          Hostname.hostnameClean }) fun _ => rfl).update _ _ _, rfl, ?_⟩
    refine (Table.rows_update_update ?_).trans (List.map_congr_left fun s _ => ?_)
    · exact fun _ hmem => hmem
    · rw [withHostname]
      obtain hmem | hmem := Decidable.em (s.pk ∈ (namesOf outside hostnameUpdates).map Prod.fst)
      · obtain ⟨name, hname⟩ := OrderedDict.mem_keys_iff_lookup.mp hmem
        simp only [hmem, decide_true, if_true, hname, Option.map_some]
      · simp only [hmem, decide_false, Bool.false_eq_true, if_false,
          OrderedDict.lookup_eq_none hmem]
  · refine .inl ⟨hfits, ?_⟩
    rw [if_neg hfits]

/-- A server after an increment of the counters. -/
def withFailure (serverIds : List ServerId) (s : Server) : Server :=
  if s.pk ∈ serverIds ∧ s.listed then { s with failures := s.failures + 1 } else s

theorem run_incrementQueryFailures (serverIds : List ServerId) (db : Database) :
    (¬ (∀ s ∈ db.servers.rows, s.pk ∈ serverIds → s.listed = true → s.failures < maxFailures) ∧
      (incrementQueryFailures serverIds).run db =
        (.error (.raised (.dataError "failures")), db)) ∨
    ((∀ s ∈ db.servers.rows, s.pk ∈ serverIds → s.listed = true → s.failures < maxFailures) ∧
      ∃ servers : Table Server Server.pk,
        (incrementQueryFailures serverIds).run db = (.ok (), { db with servers }) ∧
          servers.rows = db.servers.rows.map (withFailure serverIds)) := by
  simp only [incrementQueryFailures, run_statement]
  obtain hroom | hfull := Decidable.em (∀ s ∈ db.servers.rows, s.pk ∈ serverIds →
    s.listed = true → s.failures < maxFailures)
  · refine .inr ⟨hroom, ?_⟩
    rw [if_pos hroom]
    refine ⟨_, rfl, ?_⟩
    simp only [Table.rows_update, decide_eq_true_eq]
    rfl
  · refine .inl ⟨hfull, ?_⟩
    rw [if_neg hfull]

end ServerManager

end Swat4Stats
