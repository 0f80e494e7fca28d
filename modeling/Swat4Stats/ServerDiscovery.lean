import Mathlib.Algebra.Ring.Nat
import Mathlib.Data.List.Dedup
import Swat4Stats.Listing

/-!
# The discovery of servers

Sources publish the addresses of servers. Each is scraped by itself and each address is probed by
itself, but in between the rows of all sources are put together and converted in one go, and the
servers that answer are created in one transaction.
-/

namespace Swat4Stats

set_option autoImplicit false

open Tx

/-- What a source has for the ip and for the port of a server. -/
abbrev AddrRow := PyValue × PyValue

abbrev Body := List UInt8

structure DiscoverySource where
  /-- There is none where the import fails, and it gives nothing where it raises. -/
  parser : Option (Body → Option (List AddrRow))
  /-- The status and the body, unless the request raises. -/
  response : Option (ℕ × Body)

namespace Discovery

/-- `csv_two_columns`, after the rows that the reader makes of the content. -/
def csvTwoColumns (csvReader : Body → Option (List (List Text))) (content : Body) :
    Option (List AddrRow) :=
  (csvReader content).map fun rows => rows.filterMap fun
    | ip :: port :: _ => some (.str ip, .str port)
    | _ => none

def masterServer : PyValue → Option AddrRow
  | .dict server => do
    let ip ← OrderedDict.get? server "ip".toList
    let port ← OrderedDict.get? server "port".toList
    pure (ip, port)
  | _ => none

/-- `master_server_api`, after `json.loads`. -/
def masterServerApi (loads : Body → Option PyValue) (content : Body) : Option (List AddrRow) := do
  match ← loads content with
  | .list servers => servers.mapM masterServer
  -- a text and an object are iterated over as well, and a text has no item `"ip"`
  | .str [] | .dict [] => pure []
  | _ => none

end Discovery

def ServerDiscoveryTask.start (parser : Body → Option (List AddrRow))
    (response : Option (ℕ × Body)) : Option (List AddrRow) := do
  let (status, responseBody) ← response
  if ¬ (200 ≤ status ∧ status ≤ 299) then
    none
  else
    parser responseBody

namespace DiscoverySource

/-- What the task of a source ends with; a source without a parser has no task. -/
def parsed (source : DiscoverySource) : Option (List AddrRow) :=
  source.parser.bind fun parser => ServerDiscoveryTask.start parser source.response

end DiscoverySource

/-- The first column of a row that may be in a set. -/
inductive Host where
  | text (s : Text)
  | null
  /-- A number or a boolean. -/
  | number
  deriving DecidableEq, Repr

/-- `none` for a value that has no hash. -/
def Host.of : PyValue → Option Host
  | .str s => some (.text s)
  | .none => some .null
  | .bool _ | .int _ | .float _ => some .number
  | .list _ | .dict _ => none

abbrev ServerAddr := Host × ℤ

/-- What the driver makes of a value for a column of addresses. -/
inductive InetValue where
  | invalid
  | null
  | addr (ip : IPv4)
  deriving DecidableEq, Repr

/-- `str(IPv4Address(ip))` -/
def dottedQuad (ip : IPv4) : Text :=
  Text.join ['.'] ([ip / 2 ^ 24 % 2 ^ 8, ip / 2 ^ 16 % 2 ^ 8, ip / 2 ^ 8 % 2 ^ 8, ip % 2 ^ 8].map
    (Nat.toDigits 10))

/-- What the discovery takes from outside. -/
structure DiscoveryEnv where
  inet : Text → InetValue
  inet_dottedQuad : ∀ ip < 2 ^ 32, inet (dottedQuad ip) = .addr ip
  probe : ServerAddr → Probe
  /-- No socket connects to a number. -/
  probe_number : ∀ port, probe (.number, port) = none
  /-- The order in which the probes end. -/
  order : List ServerAddr → List ServerAddr
  order_perm : ∀ addrs, (order addrs).Perm addrs

def DiscoveryEnv.adapt (env : DiscoveryEnv) : Host → InetValue
  | .text s => env.inet s
  | .null => .null
  | .number => .invalid

/-- `Server.clean` -/
def ValidPort (port : ℤ) : Prop := 1 ≤ port ∧ port ≤ 65535

instance (port : ℤ) : Decidable (ValidPort port) := inferInstanceAs (Decidable (_ ∧ _))

namespace ServerManager

def publishedRows (sources : List DiscoverySource) : List AddrRow :=
  sources.flatMap fun source => source.parsed.getD []

/-- `none` where the row cannot be in a set, or `int` raises. -/
def serverAddr (row : AddrRow) : Option ServerAddr := do
  let host ← Host.of row.1
  let port ← Voluptuous.int row.2
  pure (host, port)

def _discoverPublishedAddrs (sources : List DiscoverySource) : Option (List ServerAddr) :=
  ((publishedRows sources).mapM serverAddr).map List.dedup

def _probePublishedAddrs (env : DiscoveryEnv) (addrs : List ServerAddr) :
    List (ServerAddr × Probe) :=
  (env.order addrs).map fun addr => (addr, env.probe addr)

def isGood (port : ℤ) (probe : Probe) : Bool :=
  (probe.bind Schema.serverquerySchema).any fun status => status.hostport = port

def goodServerAddrs (probed : List (ServerAddr × Probe)) : List ServerAddr :=
  (probed.filter fun entry => isGood entry.1.2 entry.2).map Prod.fst

def atAddr (ip : IPv4) (port : ℤ) (db : Database) : List Server :=
  db.servers.rows.filter fun s => s.ip = ip ∧ (s.port : ℤ) = port

/-- `get_or_create`, with `none` for the `ValidationError` that `create_servers` handles. -/
def getOrCreateServer (env : DiscoveryEnv) (addr : ServerAddr) : DbTx (Option (Server × Bool)) :=
  match env.adapt addr.1 with
  | .invalid => raise (.valueError "ip")
  | .null => if ValidPort addr.2 then raise (.integrityError "ip") else pure none
  | .addr ip => do
    let found ← read (atAddr ip addr.2)
    match found with
    | [] =>
      if ValidPort addr.2 then
        statement fun db => .ok (some ({ pk := db.servers.nextPk, ip, port := addr.2.toNat }, true),
          { db with
            servers :=
              db.servers.create (fun pk => { pk, ip, port := addr.2.toNat }) fun _ => rfl })
      else
        pure none
    | [server] => pure (some (server, false))
    | _ => raise .multipleObjectsReturned

/-- Disabled servers are skipped. -/
def acceptedPks : Option (Server × Bool) → List ServerId
  | some (server, created) => if created ∨ server.enabled then [server.pk] else []
  | none => []

/-- The keys of `create_servers`, which are a set there. -/
def createServers (env : DiscoveryEnv) : List ServerAddr → DbTx (List ServerId)
  | [] => pure []
  | addr :: serverAddrs => do
    let found ← getOrCreateServer env addr
    let serverPks ← createServers env serverAddrs
    pure (acceptedPks found ++ serverPks)

def discoverPublishedServers (env : DiscoveryEnv) (sources : List DiscoverySource) :
    DbTx (List Server) :=
  match _discoverPublishedAddrs sources with
  | none => raise (.valueError "server_port")
  | some addrs =>
    match goodServerAddrs (_probePublishedAddrs env addrs) with
    | [] => pure []
    | goodAddrs => atomic do
      let serverPks ← createServers env goodAddrs
      let servers ← read fun db => db.servers.rows.filter fun s => s.pk ∈ serverPks
      relistServers (servers.map Server.pk)
      pure servers

end ServerManager

namespace ServerDiscovery

open ServerManager Refresh

def Published (sources : List DiscoverySource) (ip : IPv4) (port : ℤ) : Prop :=
  ∃ source ∈ sources, ∃ rows ∈ source.parsed, ∃ value, (PyValue.str (dottedQuad ip), value) ∈ rows ∧
    Voluptuous.int value = some port

/-- A discovery that hides nothing that a source has published: it raises nothing and probes every
published address, and of the servers that answer it returns and lists each one once, unless it was
disabled. -/
def HidesNothing (env : DiscoveryEnv) (sources : List DiscoverySource) (db : Database) : Prop :=
  ∃ addrs servers db', _discoverPublishedAddrs sources = some addrs ∧
    (discoverPublishedServers env sources).run db = (.ok servers, db') ∧
    ∀ ip < 2 ^ 32, ∀ port : ℤ, 1 ≤ port → port ≤ 65534 → Published sources ip port →
      (.text (dottedQuad ip), port) ∈ addrs ∧
      (isGood port (env.probe (.text (dottedQuad ip), port)) = true →
        (∀ s ∈ atAddr ip port db, s.enabled = true) →
          ∃ server, atAddr ip port db' = [server] ∧ server.listed = true ∧
            (servers.map Server.pk).count server.pk = 1)

/-- The row can be in a set, and its port is an integer. -/
def Convertible (row : AddrRow) : Prop :=
  Host.of row.1 ≠ none ∧ Voluptuous.int row.2 ≠ none

/-- A server can be looked up at the address, and created there if its port is a valid one. -/
def Storable (env : DiscoveryEnv) (addr : ServerAddr) : Prop :=
  match env.adapt addr.1 with
  | .invalid => False
  | .null => ¬ ValidPort addr.2
  | .addr _ => True

section Addresses

variable {env : DiscoveryEnv} {sources : List DiscoverySource} {addrs : List ServerAddr}
  {addr : ServerAddr} {row : AddrRow} {ip : IPv4} {port : ℤ}

theorem serverAddr_eq_none_iff : serverAddr row = none ↔ ¬ Convertible row := by
  rw [Convertible, serverAddr]
  cases Host.of row.1 with
  | none => simp
  | some host =>
    cases Voluptuous.int row.2 with
    | none => simp
    | some port => simp

theorem mem_publishedRows : row ∈ publishedRows sources ↔
    ∃ source ∈ sources, ∃ rows ∈ source.parsed, row ∈ rows := by
  simp only [publishedRows, List.mem_flatMap]
  refine exists_congr fun source => and_congr_right fun _ => ?_
  cases source.parsed with
  | none => simp
  | some rows => simp

theorem discoverPublishedAddrs_eq_none_iff : _discoverPublishedAddrs sources = none ↔
    ∃ row ∈ publishedRows sources, ¬ Convertible row := by
  simp only [_discoverPublishedAddrs, Option.map_eq_none_iff, Voluptuous.mapM_eq_none_iff,
    serverAddr_eq_none_iff]

theorem mem_discoverPublishedAddrs (h : _discoverPublishedAddrs sources = some addrs) :
    addr ∈ addrs ↔ ∃ row ∈ publishedRows sources, serverAddr row = some addr := by
  obtain ⟨converted, hconverted, rfl⟩ := Option.map_eq_some_iff.mp h
  rw [List.mem_dedup, Voluptuous.mem_mapM_iff hconverted]

theorem mem_of_published (h : _discoverPublishedAddrs sources = some addrs)
    (hpublished : Published sources ip port) : (.text (dottedQuad ip), port) ∈ addrs := by
  obtain ⟨source, hsource, rows, hrows, value, hrow, hport⟩ := hpublished
  refine (mem_discoverPublishedAddrs h).mpr ⟨_, mem_publishedRows.mpr
    ⟨source, hsource, rows, hrows, hrow⟩, ?_⟩
  rw [serverAddr, hport]
  rfl

theorem mem_goodServerAddrs : addr ∈ goodServerAddrs (_probePublishedAddrs env addrs) ↔
    addr ∈ addrs ∧ isGood addr.2 (env.probe addr) = true := by
  simp only [goodServerAddrs, _probePublishedAddrs, List.mem_map, List.mem_filter,
    (env.order_perm addrs).mem_iff]
  constructor
  · rintro ⟨_, ⟨⟨addr, hmem, rfl⟩, hgood⟩, rfl⟩
    exact ⟨hmem, hgood⟩
  · rintro ⟨hmem, hgood⟩
    exact ⟨_, ⟨⟨addr, hmem, rfl⟩, hgood⟩, rfl⟩

end Addresses

/-- Enabled servers may have been added, each at an address of its own. -/
structure Extends (db db' : Database) : Prop where
  old : ∀ row ∈ db.servers.rows, row ∈ db'.servers.rows
  new : ∀ row ∈ db'.servers.rows, row ∈ db.servers.rows ∨ row.enabled = true
  unique : UniqueAddresses db → UniqueAddresses db'

section Creation

variable {env : DiscoveryEnv} {addrs : List ServerAddr} {addr : ServerAddr}
  {db db' db'' : Database} {ip : IPv4} {port : ℤ} {row : Server}

theorem Extends.refl (db : Database) : Extends db db :=
  ⟨fun _ hrow => hrow, fun _ hrow => .inl hrow, id⟩

theorem Extends.trans (h : Extends db db') (h' : Extends db' db'') : Extends db db'' where
  old row hrow := h'.old row (h.old row hrow)
  new row hrow := by
    obtain hrow | henabled := h'.new row hrow
    · exact h.new row hrow
    · exact .inr henabled
  unique hunique := h'.unique (h.unique hunique)

theorem mem_atAddr : row ∈ atAddr ip port db ↔
    row ∈ db.servers.rows ∧ row.ip = ip ∧ (row.port : ℤ) = port := by
  simp only [atAddr, List.mem_filter, decide_eq_true_eq]

theorem Extends.enabled (h : Extends db db') (hrow : row ∈ atAddr ip port db')
    (henabled : ∀ s ∈ atAddr ip port db, s.enabled = true) : row.enabled = true := by
  obtain ⟨hmem, haddress⟩ := mem_atAddr.mp hrow
  obtain hold | hnew := h.new row hmem
  · exact henabled row (mem_atAddr.mpr ⟨hold, haddress⟩)
  · exact hnew

theorem atAddr_eq_singleton (hunique : UniqueAddresses db) (hrow : row ∈ atAddr ip port db) :
    atAddr ip port db = [row] := by
  have hsame : ∀ x ∈ db.servers.rows, ∀ y ∈ db.servers.rows,
      decide (x.ip = ip ∧ (x.port : ℤ) = port) = true →
        decide (y.ip = ip ∧ (y.port : ℤ) = port) = true → x = y := by
    intro x hx y hy hxaddr hyaddr
    obtain ⟨hxip, hxport⟩ := of_decide_eq_true hxaddr
    obtain ⟨hyip, hyport⟩ := of_decide_eq_true hyaddr
    exact hunique x hx y hy
      (Prod.ext (hxip.trans hyip.symm) (Int.ofNat_inj.mp (hxport.trans hyport.symm)))
  obtain hnil | ⟨other, hother⟩ := db.servers.filter_eq_nil_or_singleton hsame
  · rw [atAddr, hnil] at hrow
    cases hrow
  · rw [atAddr, hother] at hrow ⊢
    rw [List.mem_singleton.mp hrow]

theorem extends_create (hnone : atAddr ip port db = []) (hport : 1 ≤ port) :
    Extends db { db with
      servers := db.servers.create (fun pk => { pk, ip, port := port.toNat }) fun _ => rfl } where
  old row hrow := Table.mem_create.mpr (.inl hrow)
  new row hrow := by
    obtain hrow | rfl := Table.mem_create.mp hrow
    · exact .inl hrow
    · exact .inr rfl
  unique hunique := by
    refine Table.inj_create hunique fun row hrow haddress => ?_
    obtain ⟨hip, hrowport⟩ := Prod.mk.inj haddress
    have hmem : row ∈ atAddr ip port db := by
      refine mem_atAddr.mpr ⟨hrow, hip, ?_⟩
      rw [hrowport]
      exact Int.toNat_of_nonneg (by omega)
    rw [hnone] at hmem
    cases hmem

theorem run_getOrCreateServer (hunique : UniqueAddresses db) (h : Storable env addr) :
    ∃ found db', (getOrCreateServer env addr).run db = (.ok found, db') ∧ Extends db db' ∧
      ∀ ip, env.adapt addr.1 = .addr ip → ValidPort addr.2 → ∃ row ∈ atAddr ip addr.2 db',
        row.enabled = true → row.pk ∈ acceptedPks found := by
  rw [getOrCreateServer]
  rw [Storable] at h
  cases hadapt : env.adapt addr.1 with
  | invalid =>
    rw [hadapt] at h
    exact h.elim
  | null =>
    rw [hadapt] at h
    simp only [if_neg h]
    exact ⟨none, db, rfl, .refl db, nofun⟩
  | addr ip =>
    simp only [run_bind, run_read]
    cases hfound : atAddr ip addr.2 db with
    | nil =>
      obtain hport | hport := Decidable.em (ValidPort addr.2)
      · simp only [if_pos hport]
        refine ⟨_, _, rfl, extends_create hfound hport.1, ?_⟩
        rintro _ ⟨⟩ ⟨hleast, _⟩
        refine ⟨{ pk := db.servers.nextPk, ip, port := addr.2.toNat }, ?_, fun _ => ?_⟩
        · exact mem_atAddr.mpr ⟨Table.mem_create.mpr (.inr rfl), rfl,
            Int.toNat_of_nonneg (by omega)⟩
        · exact List.mem_singleton.mpr rfl
      · simp only [if_neg hport]
        exact ⟨none, db, rfl, .refl db, fun _ _ hvalid => absurd hvalid hport⟩
    | cons server rest =>
      have hserver : server ∈ atAddr ip addr.2 db := hfound ▸ List.mem_cons_self
      obtain rfl : rest = [] := by
        have hsingle := atAddr_eq_singleton hunique hserver
        rw [hfound] at hsingle
        exact (List.cons.inj hsingle).2
      refine ⟨some (server, false), db, rfl, .refl db, ?_⟩
      rintro _ ⟨⟩ _
      refine ⟨server, hserver, fun henabled => ?_⟩
      rw [acceptedPks, if_pos (.inr henabled)]
      exact List.mem_singleton.mpr rfl

theorem run_getOrCreateServer_of_not_storable (h : ¬ Storable env addr) :
    ∃ e, (getOrCreateServer env addr).run db = (.error e, db) := by
  rw [getOrCreateServer]
  rw [Storable] at h
  cases hadapt : env.adapt addr.1 with
  | invalid => exact ⟨_, rfl⟩
  | null =>
    rw [hadapt] at h
    simp only [if_pos (not_not.mp h)]
    exact ⟨_, rfl⟩
  | addr ip =>
    rw [hadapt] at h
    exact absurd trivial h

theorem run_createServers (hunique : UniqueAddresses db)
    (h : ∀ addr ∈ addrs, Storable env addr) :
    ∃ pks db', (createServers env addrs).run db = (.ok pks, db') ∧ Extends db db' ∧
      ∀ addr ∈ addrs, ∀ ip, env.adapt addr.1 = .addr ip → ValidPort addr.2 →
        ∃ row ∈ atAddr ip addr.2 db', row.enabled = true → row.pk ∈ pks := by
  induction addrs generalizing db with
  | nil => exact ⟨[], db, rfl, .refl db, nofun⟩
  | cons addr addrs ih =>
    obtain ⟨haddr, haddrs⟩ := List.forall_mem_cons.mp h
    obtain ⟨found, db₁, hrun, hextends, hfound⟩ := run_getOrCreateServer hunique haddr
    obtain ⟨pks, db₂, hrest, hextends', hpks⟩ := ih (hextends.unique hunique) haddrs
    refine ⟨acceptedPks found ++ pks, db₂, ?_, hextends.trans hextends', ?_⟩
    · simp only [createServers, run_bind, hrun, hrest, run_pure]
    · refine List.forall_mem_cons.mpr
        ⟨fun ip hadapt hport => ?_, fun other hother ip hadapt hport => ?_⟩
      · obtain ⟨row, hrow, haccepted⟩ := hfound ip hadapt hport
        obtain ⟨hmem, haddress⟩ := mem_atAddr.mp hrow
        exact ⟨row, mem_atAddr.mpr ⟨hextends'.old row hmem, haddress⟩,
          fun henabled => List.mem_append_left _ (haccepted henabled)⟩
      · obtain ⟨row, hrow, haccepted⟩ := hpks other hother ip hadapt hport
        exact ⟨row, hrow, fun henabled => List.mem_append_right _ (haccepted henabled)⟩

theorem run_createServers_of_not_storable (hmem : addr ∈ addrs) (h : ¬ Storable env addr) :
    ∃ e db', (createServers env addrs).run db = (.error e, db') := by
  induction addrs generalizing db with
  | nil => cases hmem
  | cons other addrs ih =>
    simp only [createServers, run_bind]
    obtain rfl | hmem := List.mem_cons.mp hmem
    · obtain ⟨e, hrun⟩ := @run_getOrCreateServer_of_not_storable env addr db h
      rw [hrun]
      exact ⟨e, db, rfl⟩
    · rcases (getOrCreateServer env other).run db with ⟨e | found, db₁⟩
      · exact ⟨e, db₁, rfl⟩
      · obtain ⟨e, db₂, hrest⟩ := @ih db₁ hmem
        simp only [hrest]
        exact ⟨e, db₂, rfl⟩

end Creation

section Discovery

variable {env : DiscoveryEnv} {sources : List DiscoverySource} {addrs : List ServerAddr}
  {db : Database}

/-- With no good address the transaction would change nothing. -/
theorem run_discoverPublishedServers (haddrs : _discoverPublishedAddrs sources = some addrs)
    (hunique : UniqueAddresses db)
    (h : ∀ addr ∈ goodServerAddrs (_probePublishedAddrs env addrs), Storable env addr) :
    ∃ servers db₁ db₂, (discoverPublishedServers env sources).run db = (.ok servers, db₂) ∧
      Extends db db₁ ∧
      db₂.servers.rows = db₁.servers.rows.map (withRelisting (servers.map Server.pk)) ∧
      (servers.map Server.pk).Nodup ∧
      ∀ addr ∈ goodServerAddrs (_probePublishedAddrs env addrs), ∀ ip,
        env.adapt addr.1 = .addr ip → ValidPort addr.2 → ∃ row ∈ atAddr ip addr.2 db₁,
          row.enabled = true → row ∈ servers := by
  simp only [discoverPublishedServers, haddrs]
  obtain ⟨pks, db₁, hrun, hextends, hpks⟩ := run_createServers hunique h
  revert hrun hpks
  cases goodServerAddrs (_probePublishedAddrs env addrs) with
  | nil =>
    intro _ _
    refine ⟨[], db, db, rfl, .refl db, ?_, List.nodup_nil,
      fun _ haddr => absurd haddr List.not_mem_nil⟩
    refine ((List.map_congr_left fun row _ => ?_).trans (List.map_id _)).symm
    exact if_neg fun hmem => List.not_mem_nil hmem.1
  | cons addr rest =>
    intro hrun hpks
    obtain ⟨servers, hrelist, hrows⟩ := run_relistServers
      ((db₁.servers.rows.filter fun s => s.pk ∈ pks).map Server.pk) db₁
    refine ⟨db₁.servers.rows.filter fun s => s.pk ∈ pks, db₁, { db₁ with servers }, ?_, hextends,
      hrows, db₁.servers.nodup.sublist (List.filter_sublist.map _),
      fun addr haddr ip hadapt hport => ?_⟩
    · simp only [run_atomic, run_bind, hrun, run_read, hrelist, run_pure]
    · obtain ⟨row, hrow, haccepted⟩ := hpks addr haddr ip hadapt hport
      exact ⟨row, hrow, fun henabled =>
        List.mem_filter.mpr ⟨(mem_atAddr.mp hrow).1, decide_eq_true (haccepted henabled)⟩⟩

theorem atAddr_of_relisted {db' : Database} {serverIds : List ServerId} {ip : IPv4} {port : ℤ}
    (hrows : db'.servers.rows = db.servers.rows.map (withRelisting serverIds)) :
    atAddr ip port db' = (atAddr ip port db).map (withRelisting serverIds) := by
  rw [atAddr, atAddr, hrows, List.filter_map]
  congr 1
  refine List.filter_congr fun row _ => ?_
  rw [Function.comp_apply, withRelisting]
  split
  · rfl
  · rfl

theorem storable_of_good (haddrs : _discoverPublishedAddrs sources = some addrs)
    (hstorable : ∀ row ∈ publishedRows sources, ∀ addr ∈ serverAddr row,
      isGood addr.2 (env.probe addr) = true → Storable env addr) :
    ∀ addr ∈ goodServerAddrs (_probePublishedAddrs env addrs), Storable env addr := by
  intro addr haddr
  obtain ⟨hmem, hgood⟩ := mem_goodServerAddrs.mp haddr
  obtain ⟨row, hrow, haddr⟩ := (mem_discoverPublishedAddrs haddrs).mp hmem
  exact hstorable row hrow addr haddr hgood

theorem run_discoverPublishedServers_of_not_storable
    (haddrs : _discoverPublishedAddrs sources = some addrs) {addr : ServerAddr}
    (hmem : addr ∈ goodServerAddrs (_probePublishedAddrs env addrs)) (h : ¬ Storable env addr) :
    ∃ e, (discoverPublishedServers env sources).run db = (.error e, db) := by
  simp only [discoverPublishedServers, haddrs]
  obtain ⟨e, db', hrun⟩ := @run_createServers_of_not_storable env _ addr db hmem h
  revert hmem hrun
  cases goodServerAddrs (_probePublishedAddrs env addrs) with
  | nil => exact fun hmem => absurd hmem List.not_mem_nil
  | cons addr rest =>
    intro _ hrun
    simp only [run_atomic, run_bind, hrun]
    exact ⟨e, rfl⟩

end Discovery

section Example

open ServerSearch (answer)

instance (row : AddrRow) : Decidable (Convertible row) := inferInstanceAs (Decidable (_ ∧ _))

instance (env : DiscoveryEnv) (addr : ServerAddr) : Decidable (Storable env addr) :=
  match h : env.adapt addr.1 with
  | .invalid => .isFalse fun hstorable => by rwa [Storable, h] at hstorable
  | .null => decidable_of_iff (¬ ValidPort addr.2) (by rw [Storable, h])
  | .addr ip => .isTrue (by rw [Storable, h]; trivial)

/-- A number in the one way that `ipaddress` takes it. -/
def octet (s : Text) : Option ℕ :=
  (Text.parseInt s).bind fun n =>
    if n.toNat ≤ 255 ∧ Nat.toDigits 10 n.toNat = s then some n.toNat else none

/-- `ipaddress.ip_address` for the dotted form, and the empty text that becomes null. -/
def ipAddress (s : Text) : InetValue :=
  if s = [] then
    .null
  else
    match (Text.split ['.'] s).mapM octet with
    | some [a, b, c, d] => .addr (a * 2 ^ 24 + b * 2 ^ 16 + c * 2 ^ 8 + d)
    | _ => .invalid

theorem octet_toDigits {n : ℕ} (h : n < 2 ^ 8) : octet (Nat.toDigits 10 n) = some n := by
  rw [octet, Text.parseInt_toDigits, Option.bind_some, Int.toNat_natCast, if_pos ⟨by omega, rfl⟩]

theorem eq_of_octets {n : ℕ} (h : n < 2 ^ 32) : n / 2 ^ 24 % 2 ^ 8 * 2 ^ 24 +
    n / 2 ^ 16 % 2 ^ 8 * 2 ^ 16 + n / 2 ^ 8 % 2 ^ 8 * 2 ^ 8 + n % 2 ^ 8 = n := by
  omega

theorem ipAddress_dottedQuad (ip : IPv4) (h : ip < 2 ^ 32) :
    ipAddress (dottedQuad ip) = .addr ip := by
  have hsplit : Text.split ['.'] (dottedQuad ip) =
      [ip / 2 ^ 24 % 2 ^ 8, ip / 2 ^ 16 % 2 ^ 8, ip / 2 ^ 8 % 2 ^ 8, ip % 2 ^ 8].map
        (Nat.toDigits 10) := by
    refine Text.split_join (by simp) fun part hpart hdot => ?_
    obtain ⟨n, _, rfl⟩ := List.mem_map.mp hpart
    exact absurd (Text.isDigit_of_mem_toDigits hdot) (by decide)
  have hne : dottedQuad ip ≠ [] := by
    intro hnil
    rw [hnil] at hsplit
    simp [Text.split, Text.splitGo] at hsplit
  have hoctets : (([ip / 2 ^ 24 % 2 ^ 8, ip / 2 ^ 16 % 2 ^ 8, ip / 2 ^ 8 % 2 ^ 8, ip % 2 ^ 8].map
      (Nat.toDigits 10)).mapM octet) =
      some [ip / 2 ^ 24 % 2 ^ 8, ip / 2 ^ 16 % 2 ^ 8, ip / 2 ^ 8 % 2 ^ 8, ip % 2 ^ 8] := by
    simp only [List.map_cons, List.map_nil, List.mapM_cons, List.mapM_nil,
      octet_toDigits (Nat.mod_lt _ (by decide : 0 < 2 ^ 8)), Option.pure_def, Option.bind_eq_bind,
      Option.bind_some]
  rw [ipAddress, if_neg hne, hsplit, hoctets]
  exact congrArg InetValue.addr (eq_of_octets h)

def probeExample : ServerAddr → Probe
  | (.number, _) => none
  | (_, port) => if port = 10480 then some (answer "Myt Team") else none

theorem probeExample_number (port : ℤ) : probeExample (.number, port) = none := rfl

def envExample : DiscoveryEnv where
  inet := ipAddress
  inet_dottedQuad := ipAddress_dottedQuad
  probe := probeExample
  probe_number := probeExample_number
  order addrs := addrs
  order_perm := List.Perm.refl

def csvSource (rows : List (List String)) : DiscoverySource where
  parser := some (Discovery.csvTwoColumns fun _ => some (rows.map (List.map String.toList)))
  response := some (200, [])

def masterSource (servers : List (List (Text × PyValue))) : DiscoverySource where
  parser := some (Discovery.masterServerApi fun _ => some (.list (servers.map .dict)))
  response := some (200, [])

/-- One source is down, one is no server list, and two name the same servers. -/
def mixedSources : List DiscoverySource :=
  [{ parser := some fun _ => none, response := none }, { parser := none, response := none },
    csvSource [["10.0.0.7", "10480"], ["10.0.0.8", " 10480 "], ["10.0.0.9", "0"],
      ["example.org", "1"]],
    masterSource [[("ip".toList, .str "10.0.0.7".toList), ("port".toList, .int 10480)]]]

def headedSources : List DiscoverySource :=
  csvSource [["ip", "port"], ["10.0.0.8", "10480"]] :: mixedSources

def namedSources : List DiscoverySource :=
  [csvSource [["10.0.0.7", "10480"], ["example.org", "10480"]]]

end Example

end ServerDiscovery

end Swat4Stats
