import Swat4Stats.Library.OrderedDict
import Swat4Stats.ServerSearch

/-!
# The refresh of listed servers

The task asks every listed server for its status. The answers are validated one by one, but the
changed hostnames are written in one statement, and when it fails the failures of the other servers
are neither reset nor counted. One more statement counts the failures of all servers.
-/

namespace Swat4Stats

set_option autoImplicit false

open Tx

abbrev Address := IPv4 × ℕ

def Server.address (s : Server) : Address := (s.ip, s.port)

/-- The database and the hash of statuses in redis. -/
structure Store where
  db : Database
  redis : OrderedDict Address ServerStatus

namespace ServerManager

/-- What becomes of one answer. -/
inductive Refreshed where
  | withStatus (status : ServerStatus)
  | withError
  /-- The reported join port is not that of the server, which is in neither list then. -/
  | otherPort

def refreshed (server : Server) (probe : Probe) : Refreshed :=
  match probe.bind Schema.serverquerySchema with
  | none => .withError
  | some status => if status.hostport ≠ server.port then .otherPort else .withStatus status

def Refreshed.status? : Refreshed → Option ServerStatus
  | .withStatus status => some status
  | .withError | .otherPort => none

def Refreshed.isError : Refreshed → Bool
  | .withError => true
  | .withStatus _ | .otherPort => false

def withStatus (answers : ServerId → Probe) (servers : List Server) :
    List (Server × ServerStatus) :=
  servers.filterMap fun server =>
    (refreshed server (answers server.pk)).status?.map fun status => (server, status)

def withErrors (answers : ServerId → Probe) (servers : List Server) : List Server :=
  servers.filter fun server => (refreshed server (answers server.pk)).isError

/-- `hmset` of all statuses. -/
def storeStatuses (redis : OrderedDict Address ServerStatus)
    (statuses : List (Server × ServerStatus)) : OrderedDict Address ServerStatus :=
  OrderedDict.update redis (statuses.map fun live => (live.1.address, live.2))

def listed (db : Database) : List Server := db.servers.rows.filter fun s => s.enabled ∧ s.listed

end ServerManager

namespace Signals

/-- The receivers in the order they are connected. `send` lets the first exception through. -/
def liveServersDetected (outside : External) (now : Time)
    (servers : List (Server × ServerStatus)) : DbTx Unit := do
  updateLiveServersHostnames outside now servers
  resetServerFailureCount servers

def failedServersDetected (servers : List Server) : DbTx Unit := incFailuresForFailedServers servers

end Signals

namespace Tasks

open ServerManager

/-- What the task sends, given what `refresh_status` returned. -/
def sendSignals (outside : External) (now : Time) (serversLive : List (Server × ServerStatus))
    (serversFailed : List Server) : DbTx Unit := do
  if serversLive ≠ [] then
    Signals.liveServersDetected outside now serversLive
  if serversFailed ≠ [] then
    Signals.failedServersDetected serversFailed

def refreshListedServers (outside : External) (now : Time) (answers : ServerId → Probe)
    (s : Store) : Except (Failure TrackerError) Unit × Store :=
  let status := withStatus answers (listed s.db)
  let errors := withErrors answers (listed s.db)
  let sent := (sendSignals outside now status errors).run s.db
  (sent.1, ⟨sent.2, storeStatuses s.redis status⟩)

end Tasks

namespace Refresh

open ServerManager Tasks

/-- The answer brings a new hostname that does not fit. -/
def Disrupts (outside : External) (server : Server) (probe : Probe) : Prop :=
  ∃ status, refreshed server probe = .withStatus status ∧
    server.hostname ≠ some status.hostname ∧ ¬ (Hostname.of outside status.hostname).Fits

/-- The answer of `x` stops the refresh before `server` is written, to which `probe` is the answer:
with a hostname that does not fit, or, where both have failed, with a counter that is at its end. -/
def Stops (outside : External) (x : Server) (answer : Probe) (server : Server) (probe : Probe) :
    Prop :=
  Disrupts outside x answer ∨ (refreshed server probe).isError = true ∧
    (refreshed x answer).isError = true ∧ maxFailures ≤ x.failures

/-- The answer changes nothing in the row. -/
def Settled (server : Server) (probe : Probe) : Prop :=
  match refreshed server probe with
  | .withStatus status => server.hostname = some status.hostname ∧ server.failures = 0
  | .withError => False
  | .otherPort => True

def renamed (outside : External) (now : Time) (hostname : Text) (s : Server) : Server :=
  if s.hostname = some hostname then
    s
  else
    { s with
      hostname := some hostname
      hostnameClean := some (forceCleanName outside hostname)
      hostnameUpdatedAt := some now }

/-- The row of a listed server after a refresh that no answer stops. -/
def answered (outside : External) (now : Time) (probe : Probe) (s : Server) : Server :=
  match refreshed s probe with
  | .withStatus status => { renamed outside now status.hostname s with failures := 0 }
  | .withError => { s with failures := s.failures + 1 }
  | .otherPort => s

def refreshedRow (outside : External) (now : Time) (answers : ServerId → Probe) (s : Server) :
    Server :=
  if s.enabled ∧ s.listed then answered outside now (answers s.pk) s else s

/-- The row after the first signal: the failures are still to be counted. -/
def uncountedRow (outside : External) (now : Time) (answers : ServerId → Probe) (s : Server) :
    Server :=
  if (refreshed s (answers s.pk)).isError then s else refreshedRow outside now answers s

section Rows

variable {outside : External} {now : Time} {answers : ServerId → Probe} {db : Database}
  {row : Server} {status : ServerStatus}

theorem mem_listed : row ∈ listed db ↔ row ∈ db.servers.rows ∧ row.enabled ∧ row.listed := by
  simp only [listed, List.mem_filter, decide_eq_true_eq]

theorem mem_withStatus : (row, status) ∈ withStatus answers (listed db) ↔
    row ∈ listed db ∧ refreshed row (answers row.pk) = .withStatus status := by
  simp only [withStatus, List.mem_filterMap, Option.map_eq_some_iff, Prod.mk.injEq]
  constructor
  · rintro ⟨server, hserver, status', hstatus, rfl, rfl⟩
    refine ⟨hserver, ?_⟩
    cases hrefreshed : refreshed server (answers server.pk) with
    | withStatus found =>
      rw [hrefreshed] at hstatus
      rw [Option.some.inj hstatus]
    | withError =>
      rw [hrefreshed] at hstatus
      cases hstatus
    | otherPort =>
      rw [hrefreshed] at hstatus
      cases hstatus
  · rintro ⟨hrow, hrefreshed⟩
    exact ⟨row, hrow, status, by rw [hrefreshed, Refreshed.status?], rfl, rfl⟩

theorem isError_iff {outcome : Refreshed} : outcome.isError = true ↔ outcome = .withError := by
  cases outcome with
  | withStatus status => simp [Refreshed.isError]
  | withError => simp [Refreshed.isError]
  | otherPort => simp [Refreshed.isError]

theorem mem_withErrors : row ∈ withErrors answers (listed db) ↔
    row ∈ listed db ∧ refreshed row (answers row.pk) = .withError := by
  rw [withErrors, List.mem_filter]
  exact and_congr_right fun _ => isError_iff

theorem pk_mem_withStatus (hrow : row ∈ db.servers.rows) :
    row.pk ∈ (withStatus answers (listed db)).map (fun live => live.1.pk) ↔
      ∃ status, (row, status) ∈ withStatus answers (listed db) := by
  rw [List.mem_map]
  constructor
  · rintro ⟨⟨server, status⟩, hlive, hpk⟩
    have hserver := (mem_listed.mp (mem_withStatus.mp hlive).1).1
    rw [db.servers.eq_of_key_eq hserver hrow hpk] at hlive
    exact ⟨status, hlive⟩
  · rintro ⟨status, hlive⟩
    exact ⟨(row, status), hlive, rfl⟩

theorem pk_mem_withErrors (hrow : row ∈ db.servers.rows) :
    row.pk ∈ (withErrors answers (listed db)).map Server.pk ↔
      row ∈ withErrors answers (listed db) := by
  rw [List.mem_map]
  constructor
  · rintro ⟨server, hfailed, hpk⟩
    have hserver := (mem_listed.mp (mem_withErrors.mp hfailed).1).1
    rwa [db.servers.eq_of_key_eq hserver hrow hpk] at hfailed
  · exact fun hfailed => ⟨row, hfailed, rfl⟩

end Rows

def changedHostnames (live : List (Server × ServerStatus)) : List (Server × Text) :=
  (live.filter fun live => live.1.hostname ≠ some live.2.hostname).map fun live =>
    (live.1, live.2.hostname)

def withReset (serverIds : List ServerId) (s : Server) : Server :=
  if s.pk ∈ serverIds ∧ 0 < s.failures ∧ s.listed then { s with failures := 0 } else s

section Counters

variable {serverIds : List ServerId} {s : Server}

theorem withReset_of_mem (h : s.pk ∈ serverIds) (hlisted : s.listed = true) :
    withReset serverIds s = { s with failures := 0 } := by
  obtain hzero | hpos := Nat.eq_zero_or_pos s.failures
  · rw [withReset, if_neg (by simp [hzero])]
    exact congrArg (fun failures => { s with failures }) hzero
  · rw [withReset, if_pos ⟨h, hpos, hlisted⟩]

theorem withReset_of_not_mem (h : s.pk ∉ serverIds) : withReset serverIds s = s :=
  if_neg fun hmem => h hmem.1

theorem withFailure_of_mem (h : s.pk ∈ serverIds) (hlisted : s.listed = true) :
    withFailure serverIds s = { s with failures := s.failures + 1 } :=
  if_pos ⟨h, hlisted⟩

theorem withFailure_of_not_mem (h : s.pk ∉ serverIds) : withFailure serverIds s = s :=
  if_neg fun hmem => h hmem.1

end Counters

theorem renamed_columns (outside : External) (now : Time) (hostname : Text) (s : Server) :
    (renamed outside now hostname s).pk = s.pk ∧
      (renamed outside now hostname s).listed = s.listed := by
  unfold renamed
  split
  · exact ⟨rfl, rfl⟩
  · exact ⟨rfl, rfl⟩

section Signals

variable (outside : External) (now : Time) (live : List (Server × ServerStatus))
  (failed : List Server) (db : Database)

theorem run_updateLiveServersHostnames :
    (¬ (∀ entry ∈ namesOf outside (changedHostnames live), entry.2.Fits) ∧ ∃ e,
      (Signals.updateLiveServersHostnames outside now live).run db = (.error e, db)) ∨
    ((∀ entry ∈ namesOf outside (changedHostnames live), entry.2.Fits) ∧
      ∃ servers : Table Server Server.pk,
        (Signals.updateLiveServersHostnames outside now live).run db =
          (.ok (), { db with servers }) ∧
        servers.rows = db.servers.rows.map
          (withHostname now (namesOf outside (changedHostnames live)))) := by
  have hchanged : Signals.updateLiveServersHostnames outside now live =
      if changedHostnames live = [] then pure ()
      else updateHostnames outside now (changedHostnames live) := rfl
  rw [hchanged]
  split
  · rename_i hnil
    rw [hnil]
    refine .inr ⟨by rintro _ ⟨⟩, db.servers, rfl, ?_⟩
    exact (List.map_id _).symm
  · obtain ⟨hfits, hrun⟩ | hrun := run_updateHostnames outside now (changedHostnames live) db
    · exact .inl ⟨hfits, _, hrun⟩
    · exact .inr hrun

theorem run_resetServerFailureCount : ∃ servers : Table Server Server.pk,
    (Signals.resetServerFailureCount live).run db = (.ok (), { db with servers }) ∧
      servers.rows = db.servers.rows.map (withReset (live.map fun live => live.1.pk)) := by
  simp only [Signals.resetServerFailureCount, resetQueryFailures, run_write]
  refine ⟨_, rfl, ?_⟩
  simp only [Table.rows_update, decide_eq_true_eq]
  rfl

/-- A signal for no servers changes nothing, so that it may be sent as well. -/
theorem run_sendSignals_eq : (sendSignals outside now live failed).run db =
    (do Signals.updateLiveServersHostnames outside now live
        Signals.resetServerFailureCount live
        Signals.failedServersDetected failed : DbTx Unit).run db := by
  have hsame : ∀ (db db' : Database) (servers : Table Server Server.pk),
      db' = { db with servers } → servers.rows = db.servers.rows → db' = db := by
    rintro db _ servers rfl hrows
    rw [Table.ext hrows]
  have hreset : ∀ db : Database, (Signals.resetServerFailureCount []).run db = (.ok (), db) := by
    intro db
    obtain ⟨servers, hrun, hrows⟩ := run_resetServerFailureCount [] db
    rw [hrun, hsame db _ servers rfl (hrows.trans ?_)]
    refine (List.map_congr_left fun s _ => ?_).trans (List.map_id _)
    simp [withReset]
  have hfailed : ∀ db : Database, (Signals.failedServersDetected []).run db = (.ok (), db) := by
    intro db
    obtain ⟨hfull, _⟩ | ⟨_, servers, hrun, hrows⟩ := run_incrementQueryFailures [] db
    · exact absurd (fun s _ hmem => absurd hmem List.not_mem_nil) hfull
    · apply hrun.trans
      rw [hsame db _ servers rfl (hrows.trans ?_)]
      refine (List.map_congr_left fun s _ => ?_).trans (List.map_id _)
      simp [withFailure]
  have hcount : ∀ db : Database, ((if failed ≠ [] then Signals.failedServersDetected failed
      else pure () : DbTx Unit).run db) = (Signals.failedServersDetected failed).run db := by
    intro db
    obtain rfl | hne := eq_or_ne failed []
    · exact (hfailed db).symm
    · rw [if_pos hne]
  simp only [sendSignals]
  obtain rfl | hne := eq_or_ne live []
  · have hnone : (Signals.updateLiveServersHostnames outside now []).run db = (.ok (), db) := rfl
    simp only [ne_eq, not_true, if_false, run_bind, hnone, hreset]
    exact hcount db
  · simp only [ne_eq, hne, not_false_eq_true, if_true, Signals.liveServersDetected, run_bind]
    rcases (Signals.updateLiveServersHostnames outside now live).run db with ⟨e | a, db'⟩
    · rfl
    · obtain ⟨servers, hrun, _⟩ := run_resetServerFailureCount live db'
      simp only [hrun]
      exact hcount _

end Signals

section Refresh

variable {outside : External} {now : Time} {answers : ServerId → Probe} {db : Database}
  {row : Server}

theorem mem_namesOf_changed {pk : ServerId} {name : Hostname} :
    (pk, name) ∈ namesOf outside (changedHostnames (withStatus answers (listed db))) ↔
      ∃ server status, (server, status) ∈ withStatus answers (listed db) ∧
        server.hostname ≠ some status.hostname ∧ server.pk = pk ∧
          Hostname.of outside status.hostname = name := by
  simp only [namesOf, changedHostnames, List.map_map, List.mem_map, List.mem_filter,
    decide_eq_true_eq, Function.comp_apply, Prod.mk.injEq, Prod.exists]
  constructor
  · rintro ⟨server, status, ⟨hlive, hchanged⟩, hpk, hname⟩
    exact ⟨server, status, hlive, hchanged, hpk, hname⟩
  · rintro ⟨server, status, hlive, hchanged, hpk, hname⟩
    exact ⟨server, status, ⟨hlive, hchanged⟩, hpk, hname⟩

theorem fits_iff_not_disrupts :
    (∀ entry ∈ namesOf outside (changedHostnames (withStatus answers (listed db))),
      entry.2.Fits) ↔ ∀ server ∈ listed db, ¬ Disrupts outside server (answers server.pk) := by
  constructor
  · rintro hfits server hserver ⟨status, hstatus, hchanged, hlong⟩
    exact hlong (hfits (server.pk, Hostname.of outside status.hostname) (mem_namesOf_changed.mpr
      ⟨server, status, mem_withStatus.mpr ⟨hserver, hstatus⟩, hchanged, rfl, rfl⟩))
  · rintro hnone ⟨pk, name⟩ hentry
    obtain ⟨server, status, hlive, hchanged, _, rfl⟩ := mem_namesOf_changed.mp hentry
    obtain ⟨hserver, hstatus⟩ := mem_withStatus.mp hlive
    by_contra hlong
    exact hnone server hserver ⟨status, hstatus, hchanged, hlong⟩

theorem withHostname_changed (hrow : row ∈ db.servers.rows) :
    withHostname now (namesOf outside (changedHostnames (withStatus answers (listed db)))) row =
      if row.enabled ∧ row.listed then
        match (refreshed row (answers row.pk)).status? with
        | some status => renamed outside now status.hostname row
        | none => row
      else row := by
  have hentry : ∀ name, (row.pk, name) ∈
      namesOf outside (changedHostnames (withStatus answers (listed db))) ↔
        (row.enabled ∧ row.listed) ∧ ∃ status, refreshed row (answers row.pk) = .withStatus status ∧
          row.hostname ≠ some status.hostname ∧ Hostname.of outside status.hostname = name := by
    intro name
    rw [mem_namesOf_changed]
    constructor
    · rintro ⟨server, status, hlive, hchanged, hpk, hname⟩
      obtain ⟨hserver, hstatus⟩ := mem_withStatus.mp hlive
      obtain ⟨hmem, hlisted⟩ := mem_listed.mp hserver
      rw [db.servers.eq_of_key_eq hmem hrow hpk] at hlisted hstatus hchanged
      exact ⟨hlisted, status, hstatus, hchanged, hname⟩
    · rintro ⟨hlisted, status, hstatus, hchanged, hname⟩
      exact ⟨row, status, mem_withStatus.mpr ⟨mem_listed.mpr ⟨hrow, hlisted⟩, hstatus⟩, hchanged,
        rfl, hname⟩
  have hnone : (∀ name, (row.pk, name) ∉
      namesOf outside (changedHostnames (withStatus answers (listed db)))) →
        withHostname now (namesOf outside (changedHostnames (withStatus answers (listed db)))) row =
          row := by
    intro hall
    have hkey : row.pk ∉ (namesOf outside
        (changedHostnames (withStatus answers (listed db)))).map Prod.fst := by
      intro hkey
      obtain ⟨⟨pk, name⟩, hmem, rfl⟩ := List.mem_map.mp hkey
      exact hall name hmem
    rw [withHostname, OrderedDict.lookup_eq_none hkey]
  split
  · rename_i hlisted
    cases hrefreshed : refreshed row (answers row.pk) with
    | withStatus status =>
      simp only [Refreshed.status?, renamed]
      split
      · rename_i hsame
        refine hnone fun name hname => ?_
        obtain ⟨_, status', hstatus, hchanged, _⟩ := (hentry name).mp hname
        rw [hrefreshed, Refreshed.withStatus.injEq] at hstatus
        rw [hstatus] at hsame
        exact hchanged hsame
      · rename_i hchanged
        have hname : List.lookup row.pk (namesOf outside
            (changedHostnames (withStatus answers (listed db)))) =
              some (Hostname.of outside status.hostname) := by
          refine OrderedDict.lookup_eq_some ?_ fun name hname => ?_
          · exact (hentry _).mpr ⟨hlisted, status, hrefreshed, hchanged, rfl⟩
          · obtain ⟨_, status', hstatus, _, hof⟩ := (hentry name).mp hname
            rw [hrefreshed, Refreshed.withStatus.injEq] at hstatus
            rw [← hof, hstatus]
        rw [withHostname, hname]
        rfl
    | withError =>
      refine hnone fun name hname => ?_
      obtain ⟨_, status, hstatus, _⟩ := (hentry name).mp hname
      rw [hrefreshed] at hstatus
      cases hstatus
    | otherPort =>
      refine hnone fun name hname => ?_
      obtain ⟨_, status, hstatus, _⟩ := (hentry name).mp hname
      rw [hrefreshed] at hstatus
      cases hstatus
  · rename_i hlisted
    exact hnone fun name hname => hlisted ((hentry name).mp hname).1

theorem mem_withStatus_pks (hrow : row ∈ db.servers.rows) :
    row.pk ∈ (withStatus answers (listed db)).map (fun live => live.1.pk) ↔
      (row.enabled ∧ row.listed) ∧
        ∃ status, refreshed row (answers row.pk) = .withStatus status := by
  rw [pk_mem_withStatus hrow]
  simp only [mem_withStatus, mem_listed, hrow, true_and, exists_and_left]

theorem mem_withErrors_pks (hrow : row ∈ db.servers.rows) :
    row.pk ∈ (withErrors answers (listed db)).map Server.pk ↔
      (row.enabled ∧ row.listed) ∧ refreshed row (answers row.pk) = .withError := by
  rw [pk_mem_withErrors hrow, mem_withErrors, mem_listed]
  simp only [hrow, true_and]

theorem uncountedRow_eq (hrow : row ∈ db.servers.rows) :
    withReset ((withStatus answers (listed db)).map fun live => live.1.pk)
      (withHostname now (namesOf outside (changedHostnames (withStatus answers (listed db))))
        row) = uncountedRow outside now answers row := by
  have hlive := @mem_withStatus_pks answers db row hrow
  rw [withHostname_changed hrow, uncountedRow, refreshedRow]
  obtain hlisted | hlisted := Classical.em (row.enabled ∧ row.listed)
  · rw [if_pos hlisted, if_pos hlisted]
    cases hrefreshed : refreshed row (answers row.pk) with
    | withStatus status =>
      obtain ⟨hpk, hlisted'⟩ := renamed_columns outside now status.hostname row
      have hin := hlive.mpr ⟨hlisted, status, hrefreshed⟩
      simp only [Refreshed.status?, Refreshed.isError, answered, hrefreshed, Bool.false_eq_true,
        if_false]
      rw [← hpk] at hin
      exact withReset_of_mem hin (hlisted'.trans hlisted.2)
    | withError =>
      have hout : row.pk ∉ (withStatus answers (listed db)).map fun live => live.1.pk := by
        rw [hlive, hrefreshed]
        rintro ⟨_, status, hstatus⟩
        cases hstatus
      simp only [Refreshed.status?, Refreshed.isError, if_true]
      exact withReset_of_not_mem hout
    | otherPort =>
      have hout : row.pk ∉ (withStatus answers (listed db)).map fun live => live.1.pk := by
        rw [hlive, hrefreshed]
        rintro ⟨_, status, hstatus⟩
        cases hstatus
      simp only [Refreshed.status?, Refreshed.isError, answered, hrefreshed, Bool.false_eq_true,
        if_false]
      exact withReset_of_not_mem hout
  · have hin : row.pk ∉ (withStatus answers (listed db)).map fun live => live.1.pk :=
      fun h => hlisted (hlive.mp h).1
    rw [if_neg hlisted, if_neg hlisted, withReset_of_not_mem hin, ite_self]

theorem uncountedRow_pk : (uncountedRow outside now answers row).pk = row.pk := by
  unfold uncountedRow refreshedRow answered
  split
  · rfl
  · split
    · split
      · exact (renamed_columns outside now _ row).1
      · rfl
      · rfl
    · rfl

theorem uncountedRow_of_withError (h : refreshed row (answers row.pk) = .withError) :
    uncountedRow outside now answers row = row := by
  rw [uncountedRow, h]
  rfl

theorem refreshedRow_eq (hrow : row ∈ db.servers.rows) :
    withFailure ((withErrors answers (listed db)).map Server.pk)
      (uncountedRow outside now answers row) = refreshedRow outside now answers row := by
  have hfailed := @mem_withErrors_pks answers db row hrow
  obtain hin | hout := Decidable.em
    (row.pk ∈ (withErrors answers (listed db)).map Server.pk)
  · obtain ⟨hlisted, herror⟩ := hfailed.mp hin
    rw [uncountedRow_of_withError herror, withFailure_of_mem hin hlisted.2, refreshedRow,
      if_pos hlisted, answered, herror]
  · rw [withFailure_of_not_mem (by rwa [uncountedRow_pk]), uncountedRow]
    split
    · rename_i herror
      rw [refreshedRow, if_neg fun hlisted => hout (hfailed.mpr ⟨hlisted, ?_⟩)]
      exact isError_iff.mp herror
    · rfl

/-- Some answer stops the refresh as a whole. -/
def Halts (outside : External) (answers : ServerId → Probe) (s : Store) : Prop :=
  ∃ server ∈ listed s.db, Disrupts outside server (answers server.pk)

/-- Some answer stops the refresh before the server is written. -/
def Stopped (outside : External) (answers : ServerId → Probe) (s : Store) (server : Server) :
    Prop :=
  ∃ x ∈ listed s.db, Stops outside x (answers x.pk) server (answers server.pk)

theorem Halts.stopped {s : Store} (h : Halts outside answers s) :
    Stopped outside answers s row := by
  obtain ⟨x, hx, hdisrupts⟩ := h
  exact ⟨x, hx, .inl hdisrupts⟩

/-- The counters are looked at when the first signal has been handled. -/
theorem room_iff {servers : Table Server Server.pk}
    (hrows : servers.rows = db.servers.rows.map (uncountedRow outside now answers)) :
    (∀ s ∈ servers.rows, s.pk ∈ (withErrors answers (listed db)).map Server.pk →
      s.listed = true → s.failures < maxFailures) ↔
    ∀ x ∈ listed db, (refreshed x (answers x.pk)).isError = true → x.failures < maxFailures := by
  rw [hrows, List.forall_mem_map]
  constructor
  · intro h x hx herror
    obtain ⟨hmem, hlisted⟩ := mem_listed.mp hx
    have hx' := h x hmem
    rw [uncountedRow_of_withError (isError_iff.mp herror)] at hx'
    exact hx' ((mem_withErrors_pks hmem).mpr ⟨hlisted, isError_iff.mp herror⟩) hlisted.2
  · intro h x hmem hpk _
    rw [uncountedRow_pk] at hpk
    obtain ⟨hlisted, herror⟩ := (mem_withErrors_pks hmem).mp hpk
    rw [uncountedRow_of_withError herror]
    exact h x (mem_listed.mpr ⟨hmem, hlisted⟩) (isError_iff.mpr herror)

/-- Each row depends on the answer of its own server, unless an answer stops the refresh before the
row is written. -/
theorem rows_refreshListedServers (outside : External) (now : Time) (answers : ServerId → Probe)
    (s : Store) : ∃ after : Server → Server,
      (refreshListedServers outside now answers s).2.db.servers.rows =
        s.db.servers.rows.map after ∧
      ∀ row, (Stopped outside answers s row → after row = row) ∧
        (¬ Stopped outside answers s row → after row = refreshedRow outside now answers row) := by
  simp only [refreshListedServers, run_sendSignals_eq, run_bind]
  obtain ⟨hlong, e, hrun⟩ | ⟨hfits, servers, hrun, hrows⟩ := run_updateLiveServersHostnames outside
    now (withStatus answers (listed s.db)) s.db
  · have hhalts : Halts outside answers s := by
      by_contra hnone
      exact hlong (fits_iff_not_disrupts.mpr fun server hserver hdisrupts =>
        hnone ⟨server, hserver, hdisrupts⟩)
    rw [hrun]
    exact ⟨id, (List.map_id _).symm, fun row =>
      ⟨fun _ => rfl, fun hwritten => absurd hhalts.stopped hwritten⟩⟩
  · have hruns := fits_iff_not_disrupts.mp hfits
    obtain ⟨servers', hrun', hrows'⟩ := run_resetServerFailureCount
      (withStatus answers (listed s.db)) { s.db with servers }
    have huncounted : servers'.rows = s.db.servers.rows.map (uncountedRow outside now answers) := by
      simp only [hrows', hrows, List.map_map]
      exact List.map_congr_left fun row hrow => uncountedRow_eq hrow
    simp only [hrun, hrun', Signals.failedServersDetected, Signals.incFailuresForFailedServers]
    obtain ⟨hfull, hrun''⟩ | ⟨hroom, servers'', hrun'', hrows''⟩ := run_incrementQueryFailures
      ((withErrors answers (listed s.db)).map Server.pk) { s.db with servers := servers' }
    · rw [hrun'']
      refine ⟨uncountedRow outside now answers, huncounted, fun row => ⟨?_, ?_⟩⟩
      · rintro ⟨x, hx, hdisrupts | ⟨herror, _⟩⟩
        · exact absurd hdisrupts (hruns x hx)
        · exact uncountedRow_of_withError (isError_iff.mp herror)
      · intro hwritten
        refine if_neg fun herror => hfull ((room_iff huncounted).mpr fun x hx hfailed => ?_)
        by_contra hfull
        exact hwritten ⟨x, hx, .inr ⟨herror, hfailed, Nat.le_of_not_lt hfull⟩⟩
    · rw [hrun'']
      refine ⟨refreshedRow outside now answers, ?_, fun row => ⟨?_, fun _ => rfl⟩⟩
      · apply hrows''.trans
        simp only [huncounted, List.map_map]
        exact List.map_congr_left fun row hrow => refreshedRow_eq hrow
      · rintro ⟨x, hx, hdisrupts | ⟨_, hfailed, hfull⟩⟩
        · exact absurd hdisrupts (hruns x hx)
        · exact absurd ((room_iff huncounted).mp hroom x hx hfailed) (Nat.not_lt_of_le hfull)

end Refresh

/-- What is compared of a server after two runs. -/
structure View where
  hostname : Option Text
  hostnameClean : Option Text
  hostnameUpdated : Bool
  failures : ℕ
  listed : Bool
  deriving DecidableEq

def view (s : Server) : View :=
  ⟨s.hostname, s.hostnameClean, s.hostnameUpdatedAt.isSome, s.failures, s.listed⟩

/-- The server has the same columns and the same cached status in both stores. -/
structure SameFor (server : Server) (s t : Store) : Prop where
  row : (s.db.servers.find? server.pk).map view = (t.db.servers.find? server.pk).map view
  status : OrderedDict.get? s.redis server.address = OrderedDict.get? t.redis server.address

def Undisturbed (servers : List Server) (a : Server) (s t : Store) : Prop :=
  ∀ server ∈ servers, server ≠ a → SameFor server s t

/-- The unique constraint of the table. -/
def UniqueAddresses (db : Database) : Prop :=
  ∀ s ∈ db.servers.rows, ∀ t ∈ db.servers.rows, s.address = t.address → s = t

section Isolation

variable {outside : External} {now now' : Time} {answers answers' : ServerId → Probe} {s : Store}
  {a server : Server}

theorem view_answered (probe : Probe) :
    view (answered outside now probe server) = view (answered outside now' probe server) := by
  simp only [answered, renamed]
  split
  · split
    · rfl
    · rfl
  · rfl
  · rfl

theorem view_answered_eq_iff {probe : Probe} :
    view (answered outside now probe server) = view server ↔ Settled server probe := by
  simp only [answered, renamed, Settled]
  split
  · split
    · rename_i hsame
      simp only [view, View.mk.injEq, hsame, and_true, true_and]
      exact eq_comm
    · rename_i hchanged
      refine iff_of_false (fun heq => hchanged ?_) fun hsettled => hchanged hsettled.1
      exact (congrArg View.hostname heq).symm
  · refine iff_of_false (fun heq => ?_) id
    have hfailures : server.failures + 1 = server.failures := congrArg View.failures heq
    omega
  · exact iff_of_true rfl trivial

theorem view_of_stopped (h : Stopped outside answers s server)
    (hserver : server ∈ s.db.servers.rows) :
    ((refreshListedServers outside now answers s).2.db.servers.find? server.pk).map view =
      some (view server) := by
  obtain ⟨after, hrows, hafter⟩ := rows_refreshListedServers outside now answers s
  have hmem : after server ∈ (refreshListedServers outside now answers s).2.db.servers.rows :=
    hrows ▸ List.mem_map_of_mem hserver
  rw [(hafter server).1 h] at hmem
  rw [Table.find?_of_mem hmem, Option.map_some]

theorem refreshedRow_pk : (refreshedRow outside now answers server).pk = server.pk := by
  unfold refreshedRow answered
  split
  · split
    · exact (renamed_columns outside now _ server).1
    · rfl
    · rfl
  · rfl

theorem view_of_not_stopped (h : ¬ Stopped outside answers s server)
    (hserver : server ∈ s.db.servers.rows) :
    ((refreshListedServers outside now answers s).2.db.servers.find? server.pk).map view =
      some (view (refreshedRow outside now answers server)) := by
  obtain ⟨after, hrows, hafter⟩ := rows_refreshListedServers outside now answers s
  have hmem : after server ∈ (refreshListedServers outside now answers s).2.db.servers.rows :=
    hrows ▸ List.mem_map_of_mem hserver
  rw [(hafter server).2 h] at hmem
  rw [← @refreshedRow_pk outside now answers server, Table.find?_of_mem hmem, Option.map_some]

theorem get?_redis (haddresses : UniqueAddresses s.db) (hserver : server ∈ s.db.servers.rows)
    (hanswer : server ∈ listed s.db → answers server.pk = answers' server.pk) :
    OrderedDict.get? (refreshListedServers outside now answers s).2.redis server.address =
      OrderedDict.get? (refreshListedServers outside now' answers' s).2.redis server.address := by
  refine OrderedDict.get?_update_congr rfl ?_
  simp only [withStatus, List.map_filterMap, List.filter_filterMap]
  refine List.filterMap_congr fun x hx => ?_
  obtain heq | hne := eq_or_ne x server
  · rw [heq] at hx ⊢
    rw [hanswer hx]
  · have haddress : x.address ≠ server.address :=
      fun h => hne (haddresses x (mem_listed.mp hx).1 server hserver h)
    have hnone : ∀ answers : ServerId → Probe,
        ((Option.map (fun live => (live.1.address, live.2))
          ((refreshed x (answers x.pk)).status?.map fun status => (x, status))).filter
            fun entry => entry.1 = server.address) = none := by
      intro answers
      cases (refreshed x (answers x.pk)).status? with
      | none => rfl
      | some status => simp [Option.filter, haddress]
    rw [hnone answers, hnone answers']

theorem view_refreshedRow (hanswer : server ∈ listed s.db → answers server.pk = answers' server.pk)
    (hserver : server ∈ s.db.servers.rows) :
    view (refreshedRow outside now answers server) =
      view (refreshedRow outside now' answers' server) := by
  unfold refreshedRow
  split
  · rename_i hlisted
    rw [hanswer (mem_listed.mpr ⟨hserver, hlisted⟩)]
    exact view_answered _
  · rfl

theorem view_refreshedRow_eq_iff (hserver : server ∈ s.db.servers.rows) :
    view (refreshedRow outside now answers server) = view server ↔
      (server ∈ listed s.db → Settled server (answers server.pk)) := by
  rw [mem_listed, and_iff_right hserver, refreshedRow]
  split
  · rename_i hlisted
    exact view_answered_eq_iff.trans ⟨fun hsettled _ => hsettled, fun h => h hlisted⟩
  · rename_i hlisted
    exact iff_of_true rfl fun h => absurd h hlisted

/-- Some answer of a server other than `a` stops the refresh before the server is written. -/
def StoppedWithout (outside : External) (a : Server) (answers : ServerId → Probe) (s : Store)
    (server : Server) : Prop :=
  ∃ x ∈ listed s.db, x ≠ a ∧ Stops outside x (answers x.pk) server (answers server.pk)

theorem stopped_iff (ha : a ∈ listed s.db) : Stopped outside answers s server ↔
    Stops outside a (answers a.pk) server (answers server.pk) ∨
      StoppedWithout outside a answers s server := by
  constructor
  · rintro ⟨x, hx, hstops⟩
    obtain rfl | hne := eq_or_ne x a
    · exact .inl hstops
    · exact .inr ⟨x, hx, hne, hstops⟩
  · rintro (hstops | ⟨x, hx, _, hstops⟩)
    · exact ⟨a, ha, hstops⟩
    · exact ⟨x, hx, hstops⟩

theorem stoppedWithout_congr (hothers : ∀ server ∈ listed s.db, server ≠ a →
    answers server.pk = answers' server.pk) (hserver : server ∈ listed s.db) (hne : server ≠ a) :
    StoppedWithout outside a answers s server ↔ StoppedWithout outside a answers' s server := by
  refine exists_congr fun x => and_congr_right fun hx => and_congr_right fun hxne => ?_
  rw [hothers x hx hxne, hothers server hserver hne]

theorem stopped_congr_iff (ha : a ∈ listed s.db) (hothers : ∀ server ∈ listed s.db, server ≠ a →
    answers server.pk = answers' server.pk) (hserver : server ∈ listed s.db) (hne : server ≠ a) :
    (Stopped outside answers s server ↔ Stopped outside answers' s server) ↔
      ((Stops outside a (answers a.pk) server (answers server.pk) ↔
        Stops outside a (answers' a.pk) server (answers server.pk)) ∨
          StoppedWithout outside a answers s server) := by
  rw [stopped_iff ha, stopped_iff ha, ← stoppedWithout_congr hothers hserver hne,
    ← hothers server hserver hne]
  obtain hwithout | hwithout := Classical.em (StoppedWithout outside a answers s server)
  · simp only [hwithout, or_true]
  · simp only [hwithout, or_false]

/-- A server other than `a` is the same after both runs, unless just one of them is stopped and it
was to be written. -/
theorem sameFor_iff (haddresses : UniqueAddresses s.db) (hserver : server ∈ s.db.servers.rows)
    (hanswer : server ∈ listed s.db → answers server.pk = answers' server.pk) :
    SameFor server (refreshListedServers outside now answers s).2
        (refreshListedServers outside now' answers' s).2 ↔
      ((Stopped outside answers s server ↔ Stopped outside answers' s server) ∨
        (server ∈ listed s.db → Settled server (answers server.pk))) := by
  have hredis : OrderedDict.get? (refreshListedServers outside now answers s).2.redis
      server.address = OrderedDict.get? (refreshListedServers outside now' answers' s).2.redis
        server.address := get?_redis haddresses hserver hanswer
  have hsettled : (server ∈ listed s.db → Settled server (answers server.pk)) ↔
      (server ∈ listed s.db → Settled server (answers' server.pk)) :=
    forall_congr' fun hlisted => by rw [hanswer hlisted]
  have hrow : SameFor server (refreshListedServers outside now answers s).2
      (refreshListedServers outside now' answers' s).2 ↔
        ((refreshListedServers outside now answers s).2.db.servers.find? server.pk).map view =
          ((refreshListedServers outside now' answers' s).2.db.servers.find? server.pk).map view :=
    ⟨SameFor.row, fun h => ⟨h, hredis⟩⟩
  rw [hrow]
  obtain hstopped | hruns := Classical.em (Stopped outside answers s server)
  · rw [view_of_stopped hstopped hserver]
    obtain hstopped' | hruns' := Classical.em (Stopped outside answers' s server)
    · rw [view_of_stopped hstopped' hserver]
      exact iff_of_true rfl (.inl (iff_of_true hstopped hstopped'))
    · rw [view_of_not_stopped hruns' hserver, Option.some_inj, eq_comm,
        view_refreshedRow_eq_iff hserver, ← hsettled]
      exact (or_iff_right fun h => hruns' (h.mp hstopped)).symm
  · rw [view_of_not_stopped hruns hserver]
    obtain hstopped' | hruns' := Classical.em (Stopped outside answers' s server)
    · rw [view_of_stopped hstopped' hserver, Option.some_inj, view_refreshedRow_eq_iff hserver]
      exact (or_iff_right fun h => hruns (h.mpr hstopped')).symm
    · rw [view_of_not_stopped hruns' hserver]
      exact iff_of_true (congrArg some (view_refreshedRow hanswer hserver))
        (.inl (iff_of_false hruns hruns'))

end Isolation

/-- Two answers of one server leave another one alike exactly if both or neither of them stop the
refresh before that server is written, or another answer stops it anyway, or there is nothing to
write for it. -/
theorem undisturbed_iff {outside : External} {now now' : Time} {answers answers' : ServerId → Probe}
    {s : Store} {a : Server} (haddresses : UniqueAddresses s.db) (ha : a ∈ listed s.db)
    (hothers : ∀ server ∈ listed s.db, server ≠ a → answers server.pk = answers' server.pk) :
    Undisturbed s.db.servers.rows a (refreshListedServers outside now answers s).2
        (refreshListedServers outside now' answers' s).2 ↔
      ∀ server ∈ listed s.db, server ≠ a →
        (Stops outside a (answers a.pk) server (answers server.pk) ↔
          Stops outside a (answers' a.pk) server (answers server.pk)) ∨
        StoppedWithout outside a answers s server ∨
        Settled server (answers server.pk) := by
  have hsame : ∀ server ∈ s.db.servers.rows, server ≠ a → (SameFor server
      (refreshListedServers outside now answers s).2
      (refreshListedServers outside now' answers' s).2 ↔
        ((Stopped outside answers s server ↔ Stopped outside answers' s server) ∨
          (server ∈ listed s.db → Settled server (answers server.pk)))) :=
    fun server hserver hne => sameFor_iff haddresses hserver fun h => hothers server h hne
  constructor
  · intro hundisturbed server hserver hne
    have hmem := (mem_listed.mp hserver).1
    rw [← or_assoc, ← stopped_congr_iff ha hothers hserver hne]
    exact ((hsame server hmem hne).mp (hundisturbed server hmem hne)).imp_right
      fun hsettled => hsettled hserver
  · intro hcondition server hserver hne
    apply (hsame server hserver hne).mpr
    obtain hlisted | hlisted := Classical.em (server ∈ listed s.db)
    · have hserver := hcondition server hlisted hne
      rw [← or_assoc, ← stopped_congr_iff ha hothers hlisted hne] at hserver
      exact hserver.imp_right fun hsettled _ => hsettled
    · exact .inr fun h => absurd h hlisted

section Example

open ServerSearch (answer)

instance (outside : External) (server : Server) (probe : Probe) :
    Decidable (Disrupts outside server probe) :=
  match h : refreshed server probe with
  | .withStatus status =>
    decidable_of_iff (server.hostname ≠ some status.hostname ∧
        ¬ (Hostname.of outside status.hostname).Fits)
      ⟨fun hchanged => ⟨status, h, hchanged⟩, fun ⟨_, hstatus, hchanged⟩ => by
        rw [h, Refreshed.withStatus.injEq] at hstatus
        rwa [hstatus]⟩
  | .withError => .isFalse fun ⟨_, hstatus, _⟩ => by
    rw [h] at hstatus
    cases hstatus
  | .otherPort => .isFalse fun ⟨_, hstatus, _⟩ => by
    rw [h] at hstatus
    cases hstatus

instance (outside : External) (x server : Server) (answer probe : Probe) :
    Decidable (Stops outside x answer server probe) :=
  inferInstanceAs (Decidable (_ ∨ _))

def firstServer : Server := { pk := 1, ip := 7, port := 10480, listed := true }

def twoListed : Store where
  db := { Database.empty with
    servers := ⟨[firstServer, { pk := 2, ip := 8, port := 10480, listed := true }], by decide⟩ }
  redis := []

def answersOf (hostname : Option String) : ServerId → Probe
  | 1 => hostname.map answer
  | _ => none

theorem uniqueAddresses_twoListed : UniqueAddresses twoListed.db := by
  unfold UniqueAddresses
  decide

theorem answersOf_others (h h' : Option String) : ∀ server ∈ listed twoListed.db,
    server ≠ firstServer → answersOf h server.pk = answersOf h' server.pk := by
  intro server hserver hne
  obtain rfl | hserver := List.mem_cons.mp hserver
  · exact absurd rfl hne
  · obtain rfl := List.mem_singleton.mp hserver
    rfl

theorem undisturbed_of_shortHostname :
    Undisturbed twoListed.db.servers.rows firstServer
      (refreshListedServers plainOutside 5 (answersOf (some "Myt Team")) twoListed).2
      (refreshListedServers plainOutside 5 (answersOf none) twoListed).2 :=
  (undisturbed_iff uniqueAddresses_twoListed (by decide) (answersOf_others _ _)).mpr
    fun server hserver hne => by
      obtain rfl | hserver := List.mem_cons.mp hserver
      · exact absurd rfl hne
      · obtain rfl := List.mem_singleton.mp hserver
        exact .inl (iff_of_false (by decide +kernel) (by decide +kernel))

theorem answer_ofList (hostname : Text) :
    answer (String.ofList hostname) = match answer "" with
      | .dict items => .dict (OrderedDict.set items "hostname".toList (.str hostname))
      | value => value := by
  simp only [answer, List.map_cons, String.toList_ofList]
  rfl

/-- The failure of the second server is counted, unless the first one answers with a hostname that
is too long. -/
theorem longHostname_disturbs : ¬ Undisturbed twoListed.db.servers.rows firstServer
    (refreshListedServers plainOutside 5
      (answersOf (some (String.ofList (List.replicate 257 'a')))) twoListed).2
    (refreshListedServers plainOutside 5 (answersOf none) twoListed).2 := by
  intro hundisturbed
  have hsame := (hundisturbed { pk := 2, ip := 8, port := 10480, listed := true } (by decide)
    (by decide)).row
  have hanswers : answersOf (some (String.ofList (List.replicate 257 'a'))) = fun
      | 1 => some (answer (String.ofList (List.replicate 257 'a')))
      | _ => none := rfl
  rw [hanswers, answer_ofList] at hsame
  revert hsame
  decide +kernel

end Example

end Refresh

end Swat4Stats
