import Swat4Stats.Library.Keyset
import Swat4Stats.RelistRace
import Swat4Stats.ServerDiscovery

/-!
# What the cache shows

The statuses of servers are in redis only. Refreshes and requests to the API write them, unlistings
delete them, each in steps of their own, and the views show servers together with whatever status
is there.
-/

namespace Swat4Stats

set_option autoImplicit false

open Tx Transition

namespace ServerQuerySet

/-- Without `with_empty`, servers without a status are left out. -/
def withStatus (redis : OrderedDict Address ServerStatus) (servers : List Server) :
    List (Server × ServerStatus) :=
  servers.filterMap fun server =>
    (OrderedDict.get? redis server.address).map fun status => (server, status)

def listed (db : Database) : List Server := db.servers.ordered fun s => s.enabled ∧ s.listed

end ServerQuerySet

namespace ServerFilterBackend

/-- The validated query; a parameter that is missing has the default value. -/
structure Params where
  gamename : Option Text := none
  gamever : Option Text := none
  gametype : Option Text := none
  mapname : Option Text := none
  passworded : Option Bool := none
  full : Option Bool := none
  empty : Option Bool := none

def filterFull (status : ServerStatus) (value : Bool) : Bool :=
  decide (status.numplayers = status.maxplayers) = value

def filterEmpty (status : ServerStatus) (value : Bool) : Bool :=
  decide (status.numplayers = 0) = value

/-- An integer equals `True` when it is one. -/
def filterPassworded (status : ServerStatus) (value : Bool) : Bool :=
  status.password = if value then 1 else 0

def filterGamename (status : ServerStatus) (value : Text) : Bool := status.gamevariant = value

def filterGamever (status : ServerStatus) (value : Text) : Bool := status.gamever = value

def filterGametype (status : ServerStatus) (value : Text) : Bool := status.gametype = value

def filterMapname (status : ServerStatus) (value : Text) : Bool := status.mapname = value

variable {α : Type}

def filterParam (filterMethod : ServerStatus → α → Bool) (param : Option α)
    (objects : List (Server × ServerStatus)) : List (Server × ServerStatus) :=
  match param with
  | none => objects
  | some value => objects.filter fun obj => filterMethod obj.2 value

/-- In the order of the fields of the serializer. -/
def filterQueryset (params : Params) (objects : List (Server × ServerStatus)) :
    List (Server × ServerStatus) :=
  filterParam filterEmpty params.empty <|
  filterParam filterFull params.full <|
  filterParam filterPassworded params.passworded <|
  filterParam filterMapname params.mapname <|
  filterParam filterGametype params.gametype <|
  filterParam filterGamever params.gamever <|
  filterParam filterGamename params.gamename objects

/-- What a status is to have for the list of the query. -/
structure Params.Passes (params : Params) (status : ServerStatus) : Prop where
  gamename : ∀ value ∈ params.gamename, status.gamevariant = value
  gamever : ∀ value ∈ params.gamever, status.gamever = value
  gametype : ∀ value ∈ params.gametype, status.gametype = value
  mapname : ∀ value ∈ params.mapname, status.mapname = value
  passworded : ∀ value ∈ params.passworded, status.password = if value then 1 else 0
  full : ∀ value ∈ params.full, status.numplayers = status.maxplayers ↔ value = true
  empty : ∀ value ∈ params.empty, status.numplayers = 0 ↔ value = true

theorem mem_filterParam {filterMethod : ServerStatus → α → Bool} {param : Option α}
    {objects : List (Server × ServerStatus)} {obj : Server × ServerStatus} :
    obj ∈ filterParam filterMethod param objects ↔
      obj ∈ objects ∧ ∀ value ∈ param, filterMethod obj.2 value = true := by
  cases param with
  | none => simp [filterParam]
  | some value => simp [filterParam]

theorem sublist_filterParam (filterMethod : ServerStatus → α → Bool) (param : Option α)
    (objects : List (Server × ServerStatus)) :
    (filterParam filterMethod param objects).Sublist objects := by
  cases param with
  | none => exact List.Sublist.refl _
  | some value => exact List.filter_sublist

theorem decide_eq_iff {p : Prop} [Decidable p] {value : Bool} :
    decide p = value ↔ (p ↔ value = true) := by
  cases value with
  | false => simp
  | true => simp

theorem mem_filterQueryset {params : Params} {objects : List (Server × ServerStatus)}
    {obj : Server × ServerStatus} :
    obj ∈ filterQueryset params objects ↔ obj ∈ objects ∧ params.Passes obj.2 := by
  simp only [filterQueryset, mem_filterParam, filterEmpty, filterFull, filterPassworded,
    filterMapname, filterGametype, filterGamever, filterGamename, decide_eq_true_eq]
  simp only [decide_eq_iff]
  constructor
  · rintro ⟨⟨⟨⟨⟨⟨⟨hobj, hgamename⟩, hgamever⟩, hgametype⟩, hmapname⟩, hpassworded⟩, hfull⟩, hempty⟩
    exact ⟨hobj, hgamename, hgamever, hgametype, hmapname, hpassworded, hfull, hempty⟩
  · rintro ⟨hobj, h⟩
    exact ⟨⟨⟨⟨⟨⟨⟨hobj, h.gamename⟩, h.gamever⟩, h.gametype⟩, h.mapname⟩, h.passworded⟩, h.full⟩,
      h.empty⟩

theorem sublist_filterQueryset (params : Params) (objects : List (Server × ServerStatus)) :
    (filterQueryset params objects).Sublist objects :=
  (sublist_filterParam _ _ _).trans <| (sublist_filterParam _ _ _).trans <|
    (sublist_filterParam _ _ _).trans <| (sublist_filterParam _ _ _).trans <|
    (sublist_filterParam _ _ _).trans <| (sublist_filterParam _ _ _).trans <|
    sublist_filterParam _ _ _

end ServerFilterBackend

namespace ServerViewSet

open ServerFilterBackend

/-- The response to a request for the list. -/
def list (params : Params) (s : Store) : List (Server × ServerStatus) :=
  filterQueryset params (ServerQuerySet.withStatus s.redis (ServerQuerySet.listed s.db))

inductive Retrieved where
  | notFound
  | found (server : Server) (status : Option ServerStatus)
  /-- An exception that nothing handles. -/
  | failed

/-- Servers that were merged into another one are disabled, and still shown. -/
def Shown (server : Server) : Prop := server.enabled ∨ server.mergedInto ≠ none

instance (server : Server) : Decidable (Shown server) := inferInstanceAs (Decidable (_ ∨ _))

def retrieved (s : Store) (server : Option Server) : Retrieved :=
  match server with
  | none => .notFound
  | some server =>
    if Shown server then
      .found server (OrderedDict.get? s.redis server.address)
    else
      .notFound

/-- `pk_or_addr.split(":", 1)`, which has a colon. -/
def splitAddr (pkOrAddr : Text) : Text × Text :=
  (pkOrAddr.takeWhile (· ≠ ':'), (pkOrAddr.dropWhile (· ≠ ':')).tail)

def getObject (inet : Text → InetValue) (pkOrAddr : Text) (s : Store) : Retrieved :=
  if ':' ∈ pkOrAddr then
    let (ip, port) := splitAddr pkOrAddr
    match inet ip, Text.parseInt port with
    | .addr ip, some port =>
      retrieved s (s.db.servers.rows.find? fun server => server.ip = ip ∧ (server.port : ℤ) = port)
    | .null, some _ => .notFound
    | _, _ => .failed
  else if pkOrAddr = [] ∨ ¬ pkOrAddr.all Text.isUnicodeDigit then
    .notFound
  else
    match Text.parseInt pkOrAddr with
    | some pk => retrieved s (s.db.servers.rows.find? fun server => (server.pk : ℤ) = pk)
    | none => .failed

end ServerViewSet

namespace ServerManager

/-- `hset` of one status. -/
def updateServerWithStatus (redis : OrderedDict Address ServerStatus) (address : Address)
    (status : ServerStatus) : OrderedDict Address ServerStatus :=
  OrderedDict.set redis address status

end ServerManager

namespace StatusCache

open ServerManager ServerCreateSerializer ServerViewSet ServerFilterBackend
open Refresh (UniqueAddresses)
open RelistRace (accepted Addressed Saves)

/-- What a worker of the queue or of the API is in the middle of. -/
inductive Job where
  /-- The listed servers are loaded and are asked for their statuses. -/
  | refreshing (servers : List Server)
  /-- The statuses are stored, and the signals are still to be sent. -/
  | signalling (live : List (Server × ServerStatus)) (failed : List Server)
  /-- The servers that have failed too often are loaded. -/
  | unlisting (servers : List Server)
  /-- They are unlisted, and their statuses are still to be deleted. -/
  | deleting (servers : List Server)
  /-- A request to the API is validated. -/
  | creating (attrs : Attrs)

structure State where
  store : Store
  jobs : ℕ → Option Job

inductive Event where
  | loadListed (worker : ℕ)
  | storeStatuses (worker : ℕ) (answers : ServerId → Probe)
  | sendSignals (worker : ℕ) (now : Time)
  | loadFailed (worker : ℕ)
  | unlist (worker : ℕ)
  | deleteStatus (worker : ℕ)
  | validate (worker : ℕ) (ip : IPv4) (port : ℕ) (probe : Probe)
  | create (worker : ℕ)
  | cutOff (worker : ℕ)
  | relistServers (serverIds : List ServerId)
  /-- Anything else that happens to the database, where servers and their addresses stay. -/
  | elsewhere (change : Database → Database)

def State.set (s : State) (worker : ℕ) (job : Option Job) : State :=
  { s with jobs := fun other => if other = worker then job else s.jobs other }

/-- `create` of the serializer: the status is stored once the server is saved. -/
def createAndStore (attrs : Attrs) (store : Store) : Store :=
  match (create attrs).run store.db with
  | (.ok (), db) =>
    ⟨db, updateServerWithStatus store.redis (attrs.ip, attrs.port) attrs.status⟩
  | (.error _, db) => ⟨db, store.redis⟩

/-- What a step does to the servers: only those of `unlisted` are taken off the list. -/
structure Follows (unlisted : List ServerId) (db db' : Database) : Prop where
  kept : ∀ row ∈ db.servers.rows, ∃ row' ∈ db'.servers.rows, row'.pk = row.pk ∧
    row'.address = row.address ∧ (row.listed = true → row.pk ∉ unlisted → row'.listed = true)
  unique : UniqueAddresses db'
  bounded : ∀ row ∈ db'.servers.rows, row.ip < 2 ^ 32

def system (outside : External) (toleratedFailures : ℕ) : System State Event where
  enabled s
    | .loadListed worker | .loadFailed worker => s.jobs worker = none
    | .storeStatuses worker _ => ∃ servers, s.jobs worker = some (.refreshing servers)
    | .sendSignals worker _ => ∃ live failed, s.jobs worker = some (.signalling live failed)
    | .unlist worker => ∃ servers, s.jobs worker = some (.unlisting servers)
    | .deleteStatus worker => ∃ servers, s.jobs worker = some (.deleting servers)
    | .validate worker ip _ _ => s.jobs worker = none ∧ ip < 2 ^ 32
    | .create worker => ∃ attrs, s.jobs worker = some (.creating attrs)
    | .elsewhere change =>
      Follows (s.store.db.servers.rows.map Server.pk) s.store.db (change s.store.db)
    | .cutOff _ | .relistServers _ => True
  next s
    | .loadListed worker => s.set worker (some (.refreshing (ServerManager.listed s.store.db)))
    | .storeStatuses worker answers =>
      match s.jobs worker with
      | some (.refreshing servers) =>
        { s.set worker (some (.signalling (withStatus answers servers)
            (withErrors answers servers))) with
          store := ⟨s.store.db,
            ServerManager.storeStatuses s.store.redis (withStatus answers servers)⟩ }
      | _ => s
    | .sendSignals worker now =>
      match s.jobs worker with
      | some (.signalling live failed) =>
        { s.set worker none with
          store := ⟨((Tasks.sendSignals outside now live failed).run s.store.db).2,
            s.store.redis⟩ }
      | _ => s
    | .loadFailed worker =>
      match getListedServersWithExceededFailures toleratedFailures s.store.db with
      | [] => s
      | servers => s.set worker (some (.unlisting servers))
    | .unlist worker =>
      match s.jobs worker with
      | some (.unlisting servers) =>
        { s.set worker (some (.deleting servers)) with
          store := ⟨((unlistServers (servers.map Server.pk)).run s.store.db).2, s.store.redis⟩ }
      | _ => s
    | .deleteStatus worker =>
      match s.jobs worker with
      | some (.deleting servers) =>
        { s.set worker none with
          store := ⟨s.store.db, ServerManager.deleteStatus s.store.redis servers⟩ }
      | _ => s
    | .validate worker ip port probe =>
      s.set worker (((accepted ((validate outside ip port probe).run s.store.db).1).head?).map
        Job.creating)
    | .create worker =>
      match s.jobs worker with
      | some (.creating attrs) =>
        { s.set worker none with store := createAndStore attrs s.store }
      | _ => s
    | .cutOff worker => s.set worker none
    | .relistServers serverIds =>
      { s with
        store := ⟨((ServerManager.relistServers serverIds).run s.store.db).2, s.store.redis⟩ }
    | .elsewhere change => { s with store := ⟨change s.store.db, s.store.redis⟩ }

/-- Servers that a worker has unlisted, and whose statuses it is about to delete. -/
def Deleting (s : State) (address : Address) : Prop :=
  ∃ worker servers, s.jobs worker = some (.deleting servers) ∧
    address ∈ servers.map Server.address

def Job.refreshes : Job → Bool
  | .refreshing _ => true
  | _ => false

def Job.unlists : Job → Bool
  | .unlisting _ | .deleting _ => true
  | _ => false

/-- Refreshes and unlistings take turns, no unlisting is cut off before it has deleted the statuses,
and nothing else takes servers off the list. -/
def TakesTurns (s : State) : Event → Prop
  | .loadListed _ => ∀ worker, ∀ job ∈ s.jobs worker, job.unlists = false
  | .loadFailed _ => ∀ worker, ∀ job ∈ s.jobs worker, job.refreshes = false
  | .cutOff worker => ∀ servers, s.jobs worker ≠ some (.deleting servers)
  | .elsewhere change => Follows [] s.store.db (change s.store.db)
  | _ => True

/-- The status is an answer of a server that runs at the port. -/
def IsAnswer (port : ℕ) (status : ServerStatus) : Prop :=
  status.hostport = port ∧ ∃ answer, Schema.serverquerySchema answer = some status

/-- The texts under which a server is looked up. -/
def pkText (server : Server) : Text := Nat.toDigits 10 server.pk

def addressText (server : Server) : Text :=
  dottedQuad server.ip ++ ':' :: Nat.toDigits 10 server.port

/-- What the views show. -/
structure Serves (inet : Text → InetValue) (s : State) : Prop where
  cached : ∀ address status, OrderedDict.get? s.store.redis address = some status →
    IsAnswer address.2 status ∧ ∃ row ∈ s.store.db.servers.rows, row.address = address
  ordered : ∀ params, (list params s.store).Pairwise fun x y => x.1.pk < y.1.pk
  listed : ∀ params server status, (server, status) ∈ list params s.store ↔
    server ∈ s.store.db.servers.rows ∧ server.enabled = true ∧ server.listed = true ∧
      OrderedDict.get? s.store.redis server.address = some status ∧ params.Passes status
  retrieved : ∀ server ∈ s.store.db.servers.rows,
    ∀ pkOrAddr ∈ [pkText server, addressText server], getObject inet pkOrAddr s.store =
      if Shown server then
        .found server (OrderedDict.get? s.store.redis server.address)
      else
        .notFound

/-- A status that is not about to be deleted is that of a listed server. -/
def ListedOnly (s : State) : Prop :=
  ∀ address status, OrderedDict.get? s.store.redis address = some status →
    (∃ row ∈ s.store.db.servers.rows, row.address = address ∧ row.listed = true) ∨
      Deleting s address

section Follows

variable {db db' db'' : Database} {unlisted : List ServerId}

theorem Follows.refl (hunique : UniqueAddresses db) (hbounded : ∀ row ∈ db.servers.rows,
    row.ip < 2 ^ 32) : Follows unlisted db db where
  kept row hrow := ⟨row, hrow, rfl, rfl, fun hlisted _ => hlisted⟩
  unique := hunique
  bounded := hbounded

theorem Follows.trans (h : Follows unlisted db db') (h' : Follows unlisted db' db'') :
    Follows unlisted db db'' where
  kept row hrow := by
    obtain ⟨row', hrow', hpk, haddress, hlisted⟩ := h.kept row hrow
    obtain ⟨row'', hrow'', hpk', haddress', hlisted'⟩ := h'.kept row' hrow'
    refine ⟨row'', hrow'', hpk'.trans hpk, haddress'.trans haddress, fun hold hmem => ?_⟩
    exact hlisted' (hlisted hold hmem) (hpk ▸ hmem)
  unique := h'.unique
  bounded := h'.bounded

theorem Follows.of_map {f : Server → Server} (hunique : UniqueAddresses db)
    (hbounded : ∀ row ∈ db.servers.rows, row.ip < 2 ^ 32)
    (hrows : db'.servers.rows = db.servers.rows.map f)
    (haddress : ∀ row ∈ db.servers.rows, (f row).pk = row.pk ∧ (f row).address = row.address)
    (hlisted : ∀ row ∈ db.servers.rows, row.listed = true → row.pk ∉ unlisted →
      (f row).listed = true) : Follows unlisted db db' where
  kept row hrow := by
    obtain ⟨hpk, hsame⟩ := haddress row hrow
    refine ⟨f row, ?_, hpk, hsame, hlisted row hrow⟩
    rw [hrows]
    exact List.mem_map_of_mem hrow
  unique := by
    intro row hrow row' hrow' hsame
    rw [hrows] at hrow hrow'
    obtain ⟨old, hold, rfl⟩ := List.mem_map.mp hrow
    obtain ⟨old', hold', rfl⟩ := List.mem_map.mp hrow'
    rw [(haddress old hold).2, (haddress old' hold').2] at hsame
    rw [hunique old hold old' hold' hsame]
  bounded := by
    intro row hrow
    rw [hrows] at hrow
    obtain ⟨old, hold, rfl⟩ := List.mem_map.mp hrow
    have hip := congrArg Prod.fst (haddress old hold).2
    have hold := hbounded old hold
    simp only [Server.address] at hip
    rw [hip]
    exact hold

/-- An update that keeps the addresses and takes no server off the list. -/
def Keeps (m : DbTx Unit) : Prop :=
  ∀ db, UniqueAddresses db → (∀ row ∈ db.servers.rows, row.ip < 2 ^ 32) →
    Follows [] db (m.run db).2

theorem Keeps.bind {m n : DbTx Unit} (hm : Keeps m) (hn : Keeps n) :
    Keeps (do m; n) := by
  intro db hunique hbounded
  have hfollows := hm db hunique hbounded
  rw [run_bind]
  generalize m.run db = outcome at hfollows ⊢
  obtain ⟨result, db'⟩ := outcome
  cases result with
  | error e => exact hfollows
  | ok _ => exact hfollows.trans (hn db' hfollows.unique hfollows.bounded)

theorem Keeps.of_map {m : DbTx Unit} (h : ∀ db, ∃ f : Server → Server,
    (m.run db).2.servers.rows = db.servers.rows.map f ∧
      ∀ row, (f row).pk = row.pk ∧ (f row).address = row.address ∧
        (row.listed = true → (f row).listed = true)) : Keeps m := by
  intro db hunique hbounded
  obtain ⟨f, hrows, hf⟩ := h db
  exact Follows.of_map hunique hbounded hrows (fun row _ => ⟨(hf row).1, (hf row).2.1⟩)
    fun row _ hlisted _ => (hf row).2.2 hlisted

theorem keeps_sendSignals (outside : External) (now : Time) (live : List (Server × ServerStatus))
    (failed : List Server) : Keeps (Tasks.sendSignals outside now live failed) := by
  have hhostnames : Keeps (Signals.updateLiveServersHostnames outside now live) := by
    apply Keeps.of_map
    intro db
    obtain ⟨_, e, hrun⟩ | ⟨_, servers, hrun, hrows⟩ :=
      Refresh.run_updateLiveServersHostnames outside now live db
    · rw [hrun]
      exact ⟨id, (List.map_id _).symm, fun _ => ⟨rfl, rfl, id⟩⟩
    · rw [hrun]
      refine ⟨_, hrows, fun row => ?_⟩
      unfold withHostname
      split
      · exact ⟨rfl, rfl, id⟩
      · exact ⟨rfl, rfl, id⟩
  have hreset : Keeps (Signals.resetServerFailureCount live) := by
    apply Keeps.of_map
    intro db
    obtain ⟨servers, hrun, hrows⟩ := Refresh.run_resetServerFailureCount live db
    rw [hrun]
    refine ⟨_, hrows, fun row => ?_⟩
    unfold Refresh.withReset
    split
    · exact ⟨rfl, rfl, id⟩
    · exact ⟨rfl, rfl, id⟩
  have hfailures : Keeps (Signals.failedServersDetected failed) := by
    apply Keeps.of_map
    intro db
    obtain ⟨_, hrun⟩ | ⟨_, servers, hrun, hrows⟩ :=
      run_incrementQueryFailures (failed.map Server.pk) db
    · rw [Signals.failedServersDetected, Signals.incFailuresForFailedServers, hrun]
      exact ⟨id, (List.map_id _).symm, fun _ => ⟨rfl, rfl, id⟩⟩
    · rw [Signals.failedServersDetected, Signals.incFailuresForFailedServers, hrun]
      refine ⟨_, hrows, fun row => ?_⟩
      unfold withFailure
      split
      · exact ⟨rfl, rfl, id⟩
      · exact ⟨rfl, rfl, id⟩
  intro db
  rw [Refresh.run_sendSignals_eq]
  exact hhostnames.bind (hreset.bind hfailures) db

theorem keeps_relistServers (serverIds : List ServerId) :
    Keeps (ServerManager.relistServers serverIds) := by
  apply Keeps.of_map
  intro db
  obtain ⟨servers, hrun, hrows⟩ := run_relistServers serverIds db
  rw [hrun]
  refine ⟨_, hrows, fun row => ?_⟩
  unfold withRelisting
  split
  · exact ⟨rfl, rfl, fun _ => rfl⟩
  · exact ⟨rfl, rfl, id⟩

theorem follows_unlistServers (hunique : UniqueAddresses db)
    (hbounded : ∀ row ∈ db.servers.rows, row.ip < 2 ^ 32) (serverIds : List ServerId) :
    Follows serverIds db ((unlistServers serverIds).run db).2 := by
  obtain ⟨servers, hrun, hrows⟩ := run_unlistServers serverIds db
  rw [hrun]
  refine Follows.of_map hunique hbounded hrows (fun row _ => ?_) fun row _ hlisted hmem => ?_
  · unfold withUnlisting
    split
    · exact ⟨rfl, rfl⟩
    · exact ⟨rfl, rfl⟩
  · exact withUnlisting_listed.mpr ⟨hlisted, hmem⟩

end Follows

section Create

variable {db : Database} {attrs : Attrs}

/-- The server that the request loaded, if it did, is at the address. -/
def AtAddress (db : Database) (attrs : Attrs) : Prop :=
  ∀ server ∈ attrs.instance, ∃ row ∈ db.servers.rows, row.pk = server.pk ∧
    row.address = (attrs.ip, attrs.port)

/-- A new server, if the address is free. -/
theorem follows_createServer (hunique : UniqueAddresses db)
    (hbounded : ∀ row ∈ db.servers.rows, row.ip < 2 ^ 32) (hip : attrs.ip < 2 ^ 32) :
    Follows [] db ((ServerCreateSerializer.createServer attrs).run db).2 ∧
      (((ServerCreateSerializer.createServer attrs).run db).1 = .ok () →
        ∃ row ∈ ((ServerCreateSerializer.createServer attrs).run db).2.servers.rows,
          row.address = (attrs.ip, attrs.port) ∧ row.listed = true) := by
  simp only [ServerCreateSerializer.createServer, run_statement]
  obtain htaken | hfree :=
    Classical.em (∃ s ∈ db.servers.rows, s.ip = attrs.ip ∧ s.port = attrs.port)
  · simp only [if_pos htaken]
    refine ⟨Follows.refl hunique hbounded, ?_⟩
    rintro ⟨⟩
  · simp only [if_neg hfree]
    have hother : ∀ row ∈ db.servers.rows, row.address ≠ (attrs.ip, attrs.port) :=
      fun row hrow haddress =>
        hfree ⟨row, hrow, congrArg Prod.fst haddress, congrArg Prod.snd haddress⟩
    refine ⟨⟨?_, ?_, ?_⟩, fun _ => ?_⟩
    · intro row hrow
      exact ⟨row, Table.mem_create.mpr (.inl hrow), rfl, rfl, fun hlisted _ => hlisted⟩
    · intro row hrow row' hrow' hsame
      obtain hrow | rfl := Table.mem_create.mp hrow
      · obtain hrow' | rfl := Table.mem_create.mp hrow'
        · exact hunique row hrow row' hrow' hsame
        · exact absurd hsame (hother row hrow)
      · obtain hrow' | rfl := Table.mem_create.mp hrow'
        · exact absurd hsame.symm (hother row' hrow')
        · rfl
    · intro row hrow
      obtain hrow | rfl := Table.mem_create.mp hrow
      · exact hbounded row hrow
      · exact hip
    · exact ⟨_, Table.mem_create.mpr (.inr rfl), rfl, rfl⟩

/-- The loaded server, which has kept its address. -/
theorem follows_saveServer (hunique : UniqueAddresses db)
    (hbounded : ∀ row ∈ db.servers.rows, row.ip < 2 ^ 32) {server stored : Server}
    (hstored : stored ∈ db.servers.rows) (hpk : stored.pk = server.pk)
    (haddress : stored.address = (attrs.ip, attrs.port)) :
    Follows [] db ((saveServer (attrs.apply server)).run db).2 ∧
      ∃ row ∈ ((saveServer (attrs.apply server)).run db).2.servers.rows,
        row.address = (attrs.ip, attrs.port) ∧ row.listed = true := by
  have hrows : ((saveServer (attrs.apply server)).run db).2.servers.rows =
      db.servers.rows.map fun row =>
        if row.pk = server.pk then { attrs.apply server with pk := row.pk } else row := by
    simp only [saveServer, run_write, Table.rows_update, decide_eq_true_eq]
    rfl
  constructor
  · refine Follows.of_map hunique hbounded hrows (fun row hrow => ?_) fun row _ hlisted _ => ?_
    · split
      · rename_i hsame
        obtain rfl := db.servers.eq_of_key_eq hrow hstored (hsame.trans hpk.symm)
        exact ⟨rfl, haddress.symm⟩
      · exact ⟨rfl, rfl⟩
    · split
      · rfl
      · exact hlisted
  · rw [hrows]
    refine ⟨_, List.mem_map_of_mem hstored, ?_⟩
    rw [if_pos hpk]
    exact ⟨rfl, rfl⟩

theorem follows_create (hunique : UniqueAddresses db)
    (hbounded : ∀ row ∈ db.servers.rows, row.ip < 2 ^ 32) (hip : attrs.ip < 2 ^ 32)
    (hat : AtAddress db attrs) : Follows [] db ((create attrs).run db).2 ∧
      (((create attrs).run db).1 = .ok () → ∃ row ∈ ((create attrs).run db).2.servers.rows,
        row.address = (attrs.ip, attrs.port) ∧ row.listed = true) := by
  have hsame : Follows [] db db := Follows.refl hunique hbounded
  obtain hport | hport := Decidable.em (1 ≤ attrs.port ∧ attrs.port ≤ 65535)
  · obtain hfits | hfits := Decidable.em attrs.name.Fits
    · cases hinstance : attrs.instance with
      | none =>
        have hcreate : (create attrs).run db =
            (atomic (ServerCreateSerializer.createServer attrs)).run db := by
          simp only [create, hport, hfits, and_self, not_true, if_false, hinstance]
        obtain ⟨hfollows, hok⟩ := follows_createServer hunique hbounded hip
        rw [hcreate, run_atomic]
        generalize (ServerCreateSerializer.createServer attrs).run db = outcome at hfollows hok ⊢
        obtain ⟨result, db'⟩ := outcome
        cases result with
        | error e =>
          refine ⟨hsame, ?_⟩
          rintro ⟨⟩
        | ok _ => exact ⟨hfollows, hok⟩
      | some server =>
        obtain ⟨stored, hstored, hpk, haddress⟩ := hat server hinstance
        have hcreate : (create attrs).run db = (saveServer (attrs.apply server)).run db := by
          simp only [create, run_atomic, hport, hfits, and_self, not_true, if_false, hinstance,
            saveServer, run_write]
        rw [hcreate]
        obtain ⟨hfollows, hrow⟩ := follows_saveServer hunique hbounded hstored hpk haddress
        exact ⟨hfollows, fun _ => hrow⟩
    · simp only [create, run_atomic, hport, hfits, and_self, not_true, not_false_eq_true, if_true,
        if_false, run_raise]
      refine ⟨hsame, ?_⟩
      rintro ⟨⟩
  · simp only [create, run_atomic, hport, not_false_eq_true, if_true, run_raise]
    refine ⟨hsame, ?_⟩
    rintro ⟨⟩

end Create

section Invariant

/-- What a job holds is of servers that are still where they were. -/
def Job.Sound (db : Database) : Job → Prop
  | .refreshing servers | .unlisting servers | .deleting servers =>
    ∀ server ∈ servers, ∃ row ∈ db.servers.rows, row.pk = server.pk ∧
      row.address = server.address
  | .signalling _ _ => True
  | .creating attrs => attrs.ip < 2 ^ 32 ∧ IsAnswer attrs.port attrs.status ∧ AtAddress db attrs

structure Sound (s : State) : Prop where
  unique : UniqueAddresses s.store.db
  bounded : ∀ row ∈ s.store.db.servers.rows, row.ip < 2 ^ 32
  nodup : (OrderedDict.keys s.store.redis).Nodup
  cached : ∀ address status, OrderedDict.get? s.store.redis address = some status →
    IsAnswer address.2 status ∧ ∃ row ∈ s.store.db.servers.rows, row.address = address
  jobs : ∀ worker, ∀ job ∈ s.jobs worker, job.Sound s.store.db

variable {db db' : Database} {redis : OrderedDict Address ServerStatus} {jobs : ℕ → Option Job}
  {unlisted : List ServerId} {s : State} {worker : ℕ} {job : Job}

theorem Job.Sound.follows (h : job.Sound db) (hfollows : Follows unlisted db db') :
    job.Sound db' := by
  have hservers : ∀ (pk : ServerId) (address : Address),
      (∃ row ∈ db.servers.rows, row.pk = pk ∧ row.address = address) →
        ∃ row ∈ db'.servers.rows, row.pk = pk ∧ row.address = address := by
    rintro pk address ⟨row, hrow, hpk, haddress⟩
    obtain ⟨row', hrow', hpk', haddress', _⟩ := hfollows.kept row hrow
    exact ⟨row', hrow', hpk'.trans hpk, haddress'.trans haddress⟩
  cases job with
  | refreshing servers => exact fun server hserver => hservers _ _ (h server hserver)
  | unlisting servers => exact fun server hserver => hservers _ _ (h server hserver)
  | deleting servers => exact fun server hserver => hservers _ _ (h server hserver)
  | signalling live failed => trivial
  | creating attrs =>
    exact ⟨h.1, h.2.1, fun server hserver => hservers _ _ (h.2.2 server hserver)⟩

theorem Sound.next (h : Sound s) (hfollows : Follows unlisted s.store.db db')
    (hnodup : (OrderedDict.keys redis).Nodup)
    (hcached : ∀ address status, OrderedDict.get? redis address = some status →
      OrderedDict.get? s.store.redis address = some status ∨
        IsAnswer address.2 status ∧ ∃ row ∈ db'.servers.rows, row.address = address)
    (hjobs : ∀ worker, ∀ job ∈ jobs worker, job ∈ s.jobs worker ∨ job.Sound db') :
    Sound ⟨⟨db', redis⟩, jobs⟩ where
  unique := hfollows.unique
  bounded := hfollows.bounded
  nodup := hnodup
  cached address status hget := by
    obtain hget | hnew := hcached address status hget
    · obtain ⟨hanswer, row, hrow, haddress⟩ := h.cached address status hget
      obtain ⟨row', hrow', _, haddress', _⟩ := hfollows.kept row hrow
      exact ⟨hanswer, row', hrow', haddress'.trans haddress⟩
    · exact hnew
  jobs worker job hjob := by
    obtain hjob | hnew := hjobs worker job hjob
    · exact (h.jobs worker job hjob).follows hfollows
    · exact hnew

theorem Sound.refl (h : Sound s) : Follows unlisted s.store.db s.store.db :=
  Follows.refl h.unique h.bounded

theorem mem_jobs_set {newJob : Option Job} {other : ℕ}
    (h : job ∈ (s.set worker newJob).jobs other) :
    job ∈ s.jobs other ∨ job ∈ newJob := by
  simp only [State.set] at h
  split at h
  · exact .inr h
  · exact .inl h

/-- A step that only begins or ends a job. -/
theorem Sound.set (h : Sound s) {newJob : Option Job}
    (hjob : ∀ job ∈ newJob, job.Sound s.store.db) : Sound (s.set worker newJob) := by
  have hsame : Follows [] s.store.db s.store.db := h.refl
  apply h.next hsame h.nodup
  · exact fun _ _ hget => .inl hget
  · intro other job hmem
    obtain hmem | hmem := mem_jobs_set hmem
    · exact .inl hmem
    · exact .inr (hjob job hmem)

theorem sound_loaded {servers : List Server} (h : ∀ server ∈ servers, server ∈ db.servers.rows) :
    ∀ server ∈ servers, ∃ row ∈ db.servers.rows, row.pk = server.pk ∧
      row.address = server.address :=
  fun server hserver => ⟨server, h server hserver, rfl, rfl⟩

theorem isAnswer_of_refreshed {server : Server} {answer : Probe} {status : ServerStatus}
    (h : (refreshed server answer).status? = some status) : IsAnswer server.port status := by
  unfold refreshed at h
  cases hschema : answer.bind Schema.serverquerySchema with
  | none =>
    simp only [hschema, Refreshed.status?] at h
    cases h
  | some other =>
    simp only [hschema] at h
    split at h
    · cases h
    · rename_i hport
      obtain rfl := Option.some.inj h
      obtain ⟨value, hvalue, hother⟩ := Option.bind_eq_some_iff.mp hschema
      exact ⟨not_not.mp hport, value, hother⟩

/-- The addresses that a refresh writes are those of the servers it has loaded. -/
theorem of_get?_storeStatuses {answers : ServerId → Probe} {servers : List Server}
    {address : Address} {status : ServerStatus} (h : OrderedDict.get?
      (ServerManager.storeStatuses redis (withStatus answers servers)) address = some status) :
    OrderedDict.get? redis address = some status ∨
      ∃ server ∈ servers, server.address = address ∧ IsAnswer address.2 status := by
  obtain hmem | hget := OrderedDict.of_get?_update h
  · obtain ⟨live, hlive, heq⟩ := List.mem_map.mp hmem
    obtain ⟨server, hserver, hstatus⟩ := List.mem_filterMap.mp hlive
    obtain ⟨found, hfound, rfl⟩ := Option.map_eq_some_iff.mp hstatus
    cases heq
    exact .inr ⟨server, hserver, rfl, isAnswer_of_refreshed hfound⟩
  · exact .inl hget

theorem of_get?_deleteStatus {servers : List Server} (hnodup : (OrderedDict.keys redis).Nodup)
    {address : Address} {status : ServerStatus}
    (h : OrderedDict.get? (ServerManager.deleteStatus redis servers) address = some status) :
    OrderedDict.get? redis address = some status ∧ address ∉ servers.map Server.address := by
  rw [get?_deleteStatus hnodup] at h
  split at h
  · cases h
  · rename_i hmem
    exact ⟨h, hmem⟩

theorem sound_validate {outside : External} {ip : IPv4} {port : ℕ} {probe : Probe}
    {attrs : Attrs} (hip : ip < 2 ^ 32)
    (h : attrs ∈ accepted ((validate outside ip port probe).run db).1) :
    (Job.creating attrs).Sound db := by
  obtain ⟨haddressed, hloaded⟩ :=
    RelistRace.mem_of_validate (s := ⟨db, []⟩) h
  have hattrs : attrs.ip = ip ∧ attrs.port = port ∧
      probedStatus port probe = some attrs.status := by
    obtain ⟨known, hknown, _⟩ := ServerSearch.run_validateInstance ip port db
    simp only [validate, run_bind, hknown] at h
    cases known with
    | error e => cases h
    | ok known =>
      cases hprobed : probedStatus port probe with
      | none =>
        simp only [hprobed, run_raise] at h
        cases h
      | some status =>
        simp only [hprobed, run_pure, accepted, List.mem_singleton] at h
        rw [h]
        exact ⟨rfl, rfl, rfl⟩
  obtain ⟨rfl, rfl, hprobed⟩ := hattrs
  obtain ⟨hschema, hport⟩ := Option.filter_eq_some_iff.mp hprobed
  obtain ⟨value, _, hvalue⟩ := Option.bind_eq_some_iff.mp hschema
  refine ⟨hip, ⟨of_decide_eq_true hport, value, hvalue⟩, fun server hserver => ?_⟩
  obtain ⟨hserverIp, hserverPort⟩ := haddressed server hserver
  exact ⟨server, hloaded server hserver, rfl, Prod.ext hserverIp hserverPort⟩

theorem createAndStore_spec {store : Store} {attrs : Attrs} (hunique : UniqueAddresses store.db)
    (hbounded : ∀ row ∈ store.db.servers.rows, row.ip < 2 ^ 32)
    (hnodup : (OrderedDict.keys store.redis).Nodup) (h : (Job.creating attrs).Sound store.db) :
    Follows [] store.db (createAndStore attrs store).db ∧
      (OrderedDict.keys (createAndStore attrs store).redis).Nodup ∧
      ∀ address status,
        OrderedDict.get? (createAndStore attrs store).redis address = some status →
        OrderedDict.get? store.redis address = some status ∨ IsAnswer address.2 status ∧
          ∃ row ∈ (createAndStore attrs store).db.servers.rows,
            row.address = address ∧ row.listed = true := by
  obtain ⟨hip, hanswer, hat⟩ := h
  obtain ⟨hfollows, hrow⟩ := follows_create hunique hbounded hip hat
  unfold createAndStore
  generalize (create attrs).run store.db = outcome at hfollows hrow ⊢
  obtain ⟨result, db'⟩ := outcome
  cases result with
  | error e => exact ⟨hfollows, hnodup, fun _ _ hget => .inl hget⟩
  | ok _ =>
    refine ⟨hfollows, OrderedDict.nodup_keys_set hnodup, fun address status hget => ?_⟩
    simp only [updateServerWithStatus, OrderedDict.get?_set] at hget
    split at hget
    · rename_i haddress
      obtain rfl := Option.some.inj hget
      obtain rfl := haddress
      exact .inr ⟨hanswer, hrow rfl⟩
    · exact .inl hget

variable {outside : External} {toleratedFailures : ℕ} {e : Event}

theorem sound_step (h : Sound s) (he : (system outside toleratedFailures).enabled s e) :
    Sound ((system outside toleratedFailures).next s e) := by
  cases e with
  | loadListed worker =>
    apply h.set
    rintro _ ⟨⟩
    exact sound_loaded fun server hserver => (Refresh.mem_listed.mp hserver).1
  | storeStatuses worker answers =>
    obtain ⟨servers, hjob⟩ := he
    simp only [system, hjob]
    have hsame : Follows [] s.store.db s.store.db := h.refl
    apply h.next hsame
    · exact OrderedDict.nodup_keys_update h.nodup
    · intro address status hget
      obtain hget | ⟨server, hserver, haddress, hanswer⟩ := of_get?_storeStatuses hget
      · exact .inl hget
      · obtain ⟨row, hrow, _, hsame⟩ := h.jobs worker _ hjob server hserver
        exact .inr ⟨hanswer, row, hrow, hsame.trans haddress⟩
    · intro other job hmem
      obtain hmem | hmem := mem_jobs_set hmem
      · exact .inl hmem
      · obtain rfl := Option.some.inj hmem
        exact .inr trivial
  | sendSignals worker now =>
    obtain ⟨live, failed, hjob⟩ := he
    simp only [system, hjob]
    apply h.next (keeps_sendSignals outside now live failed s.store.db h.unique h.bounded) h.nodup
    · exact fun _ _ hget => .inl hget
    · intro other job hmem
      obtain hmem | hmem := mem_jobs_set hmem
      · exact .inl hmem
      · cases hmem
  | loadFailed worker =>
    simp only [system]
    split
    · exact h
    · rename_i servers hservers
      apply h.set
      rintro _ ⟨⟩
      exact sound_loaded fun server hserver =>
        (mem_getListedServersWithExceededFailures.mp hserver).1
  | unlist worker =>
    obtain ⟨servers, hjob⟩ := he
    simp only [system, hjob]
    have hfollows := follows_unlistServers h.unique h.bounded (servers.map Server.pk)
    apply h.next hfollows h.nodup
    · exact fun _ _ hget => .inl hget
    · intro other job hmem
      obtain hmem | hmem := mem_jobs_set hmem
      · exact .inl hmem
      · obtain rfl := Option.some.inj hmem
        exact .inr ((h.jobs worker _ hjob).follows hfollows)
  | deleteStatus worker =>
    obtain ⟨servers, hjob⟩ := he
    simp only [system, hjob]
    have hsame : Follows [] s.store.db s.store.db := h.refl
    apply h.next hsame (nodup_deleteStatus h.nodup)
    · exact fun _ _ hget => .inl (of_get?_deleteStatus h.nodup hget).1
    · intro other job hmem
      obtain hmem | hmem := mem_jobs_set hmem
      · exact .inl hmem
      · cases hmem
  | validate worker ip port probe =>
    apply h.set
    intro job hjob
    obtain ⟨attrs, hattrs, rfl⟩ := Option.map_eq_some_iff.mp hjob
    exact sound_validate he.2 (List.mem_of_mem_head? hattrs)
  | create worker =>
    obtain ⟨attrs, hjob⟩ := he
    simp only [system, hjob]
    obtain ⟨hfollows, hnodup, hstored⟩ :=
      createAndStore_spec h.unique h.bounded h.nodup (h.jobs worker _ hjob)
    apply h.next hfollows hnodup
    · intro address status hget
      obtain hget | ⟨hanswer, row, hrow, haddress, _⟩ := hstored address status hget
      · exact .inl hget
      · exact .inr ⟨hanswer, row, hrow, haddress⟩
    · intro other job hmem
      obtain hmem | hmem := mem_jobs_set hmem
      · exact .inl hmem
      · cases hmem
  | cutOff worker =>
    apply h.set
    rintro _ ⟨⟩
  | relistServers serverIds =>
    apply h.next (keeps_relistServers serverIds s.store.db h.unique h.bounded) h.nodup
    · exact fun _ _ hget => .inl hget
    · exact fun _ _ hmem => .inl hmem
  | elsewhere change =>
    apply h.next he h.nodup
    · exact fun _ _ hget => .inl hget
    · exact fun _ _ hmem => .inl hmem

end Invariant

section TakesTurns

/-- While servers are refreshed, none is unlisted. -/
structure Turns (s : State) : Prop where
  listedOnly : ListedOnly s
  refreshing : ∀ worker servers, s.jobs worker = some (.refreshing servers) →
    (∀ other, ∀ job ∈ s.jobs other, job.unlists = false) ∧
    ∀ server ∈ servers, ∃ row ∈ s.store.db.servers.rows,
      row.address = server.address ∧ row.listed = true

variable {db' : Database} {redis : OrderedDict Address ServerStatus} {jobs : ℕ → Option Job}
  {s : State} {worker : ℕ} {newJob : Option Job} {address : Address}

theorem Follows.listed {db : Database} (h : Follows [] db db')
    (hrow : ∃ row ∈ db.servers.rows, row.address = address ∧ row.listed = true) :
    ∃ row ∈ db'.servers.rows, row.address = address ∧ row.listed = true := by
  obtain ⟨row, hrow, haddress, hlisted⟩ := hrow
  obtain ⟨row', hrow', _, haddress', hlisted'⟩ := h.kept row hrow
  exact ⟨row', hrow', haddress'.trans haddress, hlisted' hlisted List.not_mem_nil⟩

theorem Deleting.set (h : Deleting s address)
    (hworker : ∀ servers, s.jobs worker ≠ some (.deleting servers)) :
    Deleting (s.set worker newJob) address := by
  obtain ⟨other, servers, hjob, hmem⟩ := h
  refine ⟨other, servers, ?_, hmem⟩
  simp only [State.set]
  rw [if_neg]
  · exact hjob
  · rintro rfl
    exact hworker servers hjob

/-- A step that neither begins a refresh or an unlisting nor takes a server off the list. -/
theorem Turns.next (h : Turns s) (hfollows : Follows [] s.store.db db')
    (hcached : ∀ address status, OrderedDict.get? redis address = some status →
      (∃ row ∈ db'.servers.rows, row.address = address ∧ row.listed = true) ∨
        OrderedDict.get? s.store.redis address = some status ∧
          (Deleting s address → Deleting ⟨⟨db', redis⟩, jobs⟩ address))
    (hjobs : ∀ worker, ∀ job ∈ jobs worker,
      job ∈ s.jobs worker ∨ job.refreshes = false ∧ job.unlists = false) :
    Turns ⟨⟨db', redis⟩, jobs⟩ where
  listedOnly address status hget := by
    obtain hrow | ⟨hget, hdeleting⟩ := hcached address status hget
    · exact .inl hrow
    · obtain hrow | hold := h.listedOnly address status hget
      · exact .inl (hfollows.listed hrow)
      · exact .inr (hdeleting hold)
  refreshing worker servers hjob := by
    obtain hjob | ⟨hrefreshes, _⟩ := hjobs worker _ hjob
    · obtain ⟨hapart, hservers⟩ := h.refreshing worker servers hjob
      refine ⟨fun other job hmem => ?_, fun server hserver =>
        hfollows.listed (hservers server hserver)⟩
      obtain hmem | ⟨_, hunlists⟩ := hjobs other job hmem
      · exact hapart other job hmem
      · exact hunlists
    · cases hrefreshes

theorem Turns.set (h : Turns s) (hs : Sound s)
    (hworker : ∀ servers, s.jobs worker ≠ some (.deleting servers))
    (hjob : ∀ job ∈ newJob, job.refreshes = false ∧ job.unlists = false) :
    Turns (s.set worker newJob) := by
  apply h.next hs.refl
  · exact fun address status hget => .inr ⟨hget, fun hold => hold.set hworker⟩
  · intro other job hmem
    obtain hmem | hmem := mem_jobs_set hmem
    · exact .inl hmem
    · exact .inr (hjob job hmem)

theorem ne_deleting {job : Job} (h : s.jobs worker = some job)
    (hjob : ∀ servers, job ≠ .deleting servers) :
    ∀ servers, s.jobs worker ≠ some (.deleting servers) := by
  intro servers hdeleting
  rw [h] at hdeleting
  exact hjob servers (Option.some.inj hdeleting)

theorem ne_deleting_of_none (h : s.jobs worker = none) :
    ∀ servers, s.jobs worker ≠ some (.deleting servers) := by
  intro servers hdeleting
  rw [h] at hdeleting
  cases hdeleting

variable {outside : External} {toleratedFailures : ℕ} {e : Event}

theorem turns_loadListed (h : Turns s) (hidle : s.jobs worker = none)
    (hturns : ∀ other, ∀ job ∈ s.jobs other, job.unlists = false) :
    Turns (s.set worker (some (.refreshing (ServerManager.listed s.store.db)))) where
  listedOnly address status hget := by
    obtain hrow | hold := h.listedOnly address status hget
    · exact .inl hrow
    · exact .inr (hold.set (ne_deleting_of_none hidle))
  refreshing other servers hjob := by
    refine ⟨fun other' job hmem => ?_, fun server hserver => ?_⟩
    · obtain hmem | hmem := mem_jobs_set hmem
      · exact hturns other' job hmem
      · obtain rfl := Option.some.inj hmem
        rfl
    · obtain hjob | hjob := mem_jobs_set hjob
      · exact (h.refreshing other servers hjob).2 server hserver
      · cases hjob
        obtain ⟨hrow, _, hlisted⟩ := Refresh.mem_listed.mp hserver
        exact ⟨server, hrow, rfl, hlisted⟩

theorem turns_loadFailed (h : Turns s) (hidle : s.jobs worker = none)
    (hturns : ∀ other, ∀ job ∈ s.jobs other, job.refreshes = false) (servers : List Server) :
    Turns (s.set worker (some (.unlisting servers))) where
  listedOnly address status hget := by
    obtain hrow | hold := h.listedOnly address status hget
    · exact .inl hrow
    · exact .inr (hold.set (ne_deleting_of_none hidle))
  refreshing other servers hjob := by
    obtain hjob | hjob := mem_jobs_set hjob
    · cases hturns other _ hjob
    · cases hjob

/-- The servers that leave the list are those whose statuses are to be deleted. -/
theorem turns_unlist (h : Turns s) (hs : Sound s) {servers : List Server}
    (hjob : s.jobs worker = some (.unlisting servers)) :
    Turns ⟨⟨((unlistServers (servers.map Server.pk)).run s.store.db).2, s.store.redis⟩,
      (s.set worker (some (.deleting servers))).jobs⟩ where
  listedOnly address status hget := by
    have hfollows := follows_unlistServers hs.unique hs.bounded (servers.map Server.pk)
    obtain ⟨row, hrow, haddress, hlisted⟩ | hold := h.listedOnly address status hget
    · obtain hmem | hmem := Decidable.em (row.pk ∈ servers.map Server.pk)
      · obtain ⟨server, hserver, hpk⟩ := List.mem_map.mp hmem
        obtain ⟨stored, hstored, hpk', haddress'⟩ := hs.jobs worker _ hjob server hserver
        obtain rfl := s.store.db.servers.eq_of_key_eq hstored hrow (hpk'.trans hpk)
        refine .inr ⟨worker, servers, if_pos rfl, List.mem_map.mpr ⟨server, hserver, ?_⟩⟩
        exact haddress'.symm.trans haddress
      · obtain ⟨row', hrow', _, haddress', hlisted'⟩ := hfollows.kept row hrow
        exact .inl ⟨row', hrow', haddress'.trans haddress, hlisted' hlisted hmem⟩
    · refine .inr (hold.set (ne_deleting hjob ?_))
      rintro _ ⟨⟩
  refreshing other servers' hother := by
    obtain hother | hother := mem_jobs_set hother
    · cases (h.refreshing other servers' hother).1 worker _ hjob
    · cases hother

theorem turns_deleteStatus (h : Turns s) (hs : Sound s) {servers : List Server}
    (hjob : s.jobs worker = some (.deleting servers)) :
    Turns ⟨⟨s.store.db, ServerManager.deleteStatus s.store.redis servers⟩,
      (s.set worker none).jobs⟩ := by
  apply h.next hs.refl
  · intro address status hget
    obtain ⟨hget, hnot⟩ := of_get?_deleteStatus hs.nodup hget
    refine .inr ⟨hget, ?_⟩
    rintro ⟨other, servers', hother, hmem⟩
    refine ⟨other, servers', ?_, hmem⟩
    simp only [State.set]
    rw [if_neg]
    · exact hother
    · rintro rfl
      rw [hjob] at hother
      cases hother
      exact hnot hmem
  · intro other job hmem
    obtain hmem | hmem := mem_jobs_set hmem
    · exact .inl hmem
    · cases hmem

theorem turns_step (h : Turns s) (hs : Sound s)
    (he : (system outside toleratedFailures).enabled s e) (hturns : TakesTurns s e) :
    Turns ((system outside toleratedFailures).next s e) := by
  cases e with
  | loadListed worker => exact turns_loadListed h he hturns
  | storeStatuses worker answers =>
    obtain ⟨servers, hjob⟩ := he
    simp only [system, hjob]
    have hworker : ∀ servers, s.jobs worker ≠ some (.deleting servers) := by
      apply ne_deleting hjob
      rintro _ ⟨⟩
    apply h.next hs.refl
    · intro address status hget
      obtain hget | ⟨server, hserver, rfl, _⟩ := of_get?_storeStatuses hget
      · exact .inr ⟨hget, fun hold => hold.set hworker⟩
      · exact .inl ((h.refreshing worker servers hjob).2 server hserver)
    · intro other job hmem
      obtain hmem | hmem := mem_jobs_set hmem
      · exact .inl hmem
      · obtain rfl := Option.some.inj hmem
        exact .inr ⟨rfl, rfl⟩
  | sendSignals worker now =>
    obtain ⟨live, failed, hjob⟩ := he
    simp only [system, hjob]
    have hworker : ∀ servers, s.jobs worker ≠ some (.deleting servers) := by
      apply ne_deleting hjob
      rintro _ ⟨⟩
    apply h.next (keeps_sendSignals outside now live failed s.store.db hs.unique hs.bounded)
    · exact fun address status hget => .inr ⟨hget, fun hold => hold.set hworker⟩
    · intro other job hmem
      obtain hmem | hmem := mem_jobs_set hmem
      · exact .inl hmem
      · cases hmem
  | loadFailed worker =>
    simp only [system]
    split
    · exact h
    · exact turns_loadFailed h he hturns _
  | unlist worker =>
    obtain ⟨servers, hjob⟩ := he
    simp only [system, hjob]
    exact turns_unlist h hs hjob
  | deleteStatus worker =>
    obtain ⟨servers, hjob⟩ := he
    simp only [system, hjob]
    exact turns_deleteStatus h hs hjob
  | validate worker ip port probe =>
    apply h.set hs (ne_deleting_of_none he.1)
    intro job hjob
    obtain ⟨attrs, _, rfl⟩ := Option.map_eq_some_iff.mp hjob
    exact ⟨rfl, rfl⟩
  | create worker =>
    obtain ⟨attrs, hjob⟩ := he
    simp only [system, hjob]
    have hworker : ∀ servers, s.jobs worker ≠ some (.deleting servers) := by
      apply ne_deleting hjob
      rintro _ ⟨⟩
    obtain ⟨hfollows, _, hstored⟩ :=
      createAndStore_spec hs.unique hs.bounded hs.nodup (hs.jobs worker _ hjob)
    apply h.next hfollows
    · intro address status hget
      obtain hget | ⟨_, hrow⟩ := hstored address status hget
      · exact .inr ⟨hget, fun hold => hold.set hworker⟩
      · exact .inl hrow
    · intro other job hmem
      obtain hmem | hmem := mem_jobs_set hmem
      · exact .inl hmem
      · cases hmem
  | cutOff worker =>
    apply h.set hs hturns
    rintro _ ⟨⟩
  | relistServers serverIds =>
    apply h.next (keeps_relistServers serverIds s.store.db hs.unique hs.bounded)
    · exact fun address status hget => .inr ⟨hget, id⟩
    · exact fun _ _ hmem => .inl hmem
  | elsewhere change =>
    apply h.next hturns
    · exact fun address status hget => .inr ⟨hget, id⟩
    · exact fun _ _ hmem => .inl hmem

end TakesTurns

section Views

variable {inet : Text → InetValue} {s : Store} {params : Params} {server : Server}
  {status : ServerStatus}

theorem mem_withStatus {redis : OrderedDict Address ServerStatus} {servers : List Server} :
    (server, status) ∈ ServerQuerySet.withStatus redis servers ↔
      server ∈ servers ∧ OrderedDict.get? redis server.address = some status := by
  simp only [ServerQuerySet.withStatus, List.mem_filterMap, Option.map_eq_some_iff]
  constructor
  · rintro ⟨_, hserver, _, hget, heq⟩
    cases heq
    exact ⟨hserver, hget⟩
  · rintro ⟨hserver, hget⟩
    exact ⟨server, hserver, status, hget, rfl⟩

theorem mem_list : (server, status) ∈ list params s ↔
    server ∈ s.db.servers.rows ∧ server.enabled = true ∧ server.listed = true ∧
      OrderedDict.get? s.redis server.address = some status ∧ params.Passes status := by
  rw [list, mem_filterQueryset, mem_withStatus, ServerQuerySet.listed, Table.mem_ordered,
    decide_eq_true_eq]
  constructor
  · rintro ⟨⟨⟨hrow, henabled, hlisted⟩, hget⟩, hpasses⟩
    exact ⟨hrow, henabled, hlisted, hget, hpasses⟩
  · rintro ⟨hrow, henabled, hlisted, hget, hpasses⟩
    exact ⟨⟨⟨hrow, henabled, hlisted⟩, hget⟩, hpasses⟩

theorem pairwise_list : (list params s).Pairwise fun x y => x.1.pk < y.1.pk := by
  apply List.Pairwise.sublist (sublist_filterQueryset params _)
  refine List.Pairwise.filterMap _ ?_ Table.pairwise_ordered
  intro x y hlt b hb c hc
  obtain ⟨_, _, rfl⟩ := Option.map_eq_some_iff.mp hb
  obtain ⟨_, _, rfl⟩ := Option.map_eq_some_iff.mp hc
  exact hlt

theorem mem_dottedQuad {ip : IPv4} {c : Char} (h : c ∈ dottedQuad ip) :
    c = '.' ∨ c.isDigit = true := by
  simp only [dottedQuad, List.map_cons, List.map_nil, Text.join_cons_cons, Text.join_singleton,
    List.mem_append, List.mem_singleton] at h
  obtain h | rfl | h | rfl | h | rfl | h := by simpa [or_assoc] using h
  · exact .inr (Text.isDigit_of_mem_toDigits h)
  · exact .inl rfl
  · exact .inr (Text.isDigit_of_mem_toDigits h)
  · exact .inl rfl
  · exact .inr (Text.isDigit_of_mem_toDigits h)
  · exact .inl rfl
  · exact .inr (Text.isDigit_of_mem_toDigits h)

theorem splitAddr_addressText : splitAddr (addressText server) =
    (dottedQuad server.ip, Nat.toDigits 10 server.port) := by
  have hquad : ∀ c ∈ dottedQuad server.ip, decide (c ≠ ':') = true := by
    intro c hc
    rw [decide_eq_true_eq]
    rintro rfl
    obtain hdot | hdigit := mem_dottedQuad hc
    · exact absurd hdot (by decide)
    · exact absurd hdigit (by decide)
  simp only [splitAddr, addressText]
  rw [List.takeWhile_append_of_pos hquad, List.dropWhile_append_of_pos hquad]
  simp

/-- The only server that a condition on rows holds of is the one that is found. -/
theorem find?_eq_some {rows : List Server} {p : Server → Bool} (hserver : server ∈ rows)
    (hp : p server = true) (honly : ∀ row ∈ rows, p row = true → row = server) :
    rows.find? p = some server := by
  cases hfind : rows.find? p with
  | none => exact absurd hp (List.find?_eq_none.mp hfind server hserver)
  | some row => rw [honly row (List.mem_of_find?_eq_some hfind) (List.find?_some hfind)]

theorem retrieved_some : retrieved s (some server) =
    if Shown server then .found server (OrderedDict.get? s.redis server.address)
    else .notFound := rfl

theorem getObject_pkText (hserver : server ∈ s.db.servers.rows) :
    getObject inet (pkText server) s = retrieved s (some server) := by
  have hdigits : ∀ c ∈ pkText server, c.isDigit = true := fun c hc =>
    Text.isDigit_of_mem_toDigits hc
  have hcolon : ':' ∉ pkText server := fun hmem => absurd (hdigits ':' hmem) (by decide)
  have hdigital : ¬ (pkText server = [] ∨ ¬ (pkText server).all Text.isUnicodeDigit) := by
    rintro (hnil | hnot)
    · exact Nat.toDigits_ne_nil hnil
    · exact hnot (List.all_eq_true.mpr fun c hc => Text.isUnicodeDigit_of_isDigit (hdigits c hc))
  have hfind : (s.db.servers.rows.find? fun row => (row.pk : ℤ) = (server.pk : ℤ)) =
      some server := by
    apply find?_eq_some hserver (decide_eq_true rfl)
    intro row hrow hpk
    exact s.db.servers.eq_of_key_eq hrow hserver (Int.ofNat.inj (of_decide_eq_true hpk))
  rw [getObject, if_neg hcolon, if_neg hdigital, pkText, Text.parseInt_toDigits]
  simp only [hfind]

theorem getObject_addressText (hinet : ∀ ip < 2 ^ 32, inet (dottedQuad ip) = .addr ip)
    (hunique : UniqueAddresses s.db) (hbounded : ∀ row ∈ s.db.servers.rows, row.ip < 2 ^ 32)
    (hserver : server ∈ s.db.servers.rows) :
    getObject inet (addressText server) s = retrieved s (some server) := by
  have hcolon : ':' ∈ addressText server := by simp [addressText]
  have hfind : (s.db.servers.rows.find? fun row =>
      row.ip = server.ip ∧ (row.port : ℤ) = (server.port : ℤ)) = some server := by
    apply find?_eq_some hserver (decide_eq_true ⟨rfl, rfl⟩)
    intro row hrow haddress
    obtain ⟨hip, hport⟩ := of_decide_eq_true haddress
    exact hunique row hrow server hserver (Prod.ext hip (Int.ofNat.inj hport))
  rw [getObject, if_pos hcolon, splitAddr_addressText]
  simp only [hinet server.ip (hbounded server hserver), Text.parseInt_toDigits, hfind]

end Views

section Runs

variable {outside : External} {toleratedFailures : ℕ} {inet : Text → InetValue}
  {start t : State} {events : List Event}

theorem Sound.serves (h : Sound t) (hinet : ∀ ip < 2 ^ 32, inet (dottedQuad ip) = .addr ip) :
    Serves inet t where
  cached := h.cached
  ordered _ := pairwise_list
  listed _ _ _ := mem_list
  retrieved server hserver pkOrAddr htext := by
    rw [← retrieved_some]
    obtain rfl | htext := List.mem_cons.mp htext
    · exact getObject_pkText hserver
    · obtain rfl := List.mem_singleton.mp htext
      exact getObject_addressText hinet h.unique h.bounded hserver

theorem serves_of_run (hinet : ∀ ip < 2 ^ 32, inet (dottedQuad ip) = .addr ip)
    (hunique : UniqueAddresses start.store.db)
    (hbounded : ∀ row ∈ start.store.db.servers.rows, row.ip < 2 ^ 32)
    (hredis : start.store.redis = []) (hjobs : ∀ worker, start.jobs worker = none)
    (hrun : Run (system outside toleratedFailures) start events t) :
    Serves inet t ∧
      (Run ((system outside toleratedFailures).restrict TakesTurns) start events t →
        ListedOnly t) := by
  have hstart : Sound start := by
    refine ⟨hunique, hbounded, ?_, ?_, ?_⟩
    · rw [hredis]
      exact List.nodup_nil
    · intro address status hget
      rw [hredis] at hget
      cases hget
    · intro worker job hjob
      rw [hjobs worker] at hjob
      cases hjob
  have hsound : Sound t := hrun.invariant (fun _ _ h he => sound_step h he) hstart
  refine ⟨hsound.serves hinet, fun hturns => ?_⟩
  let Inv := fun s => Sound s ∧ Turns s
  have hboth : Inv t := by
    refine hturns.invariant_restrict ?_ (show Inv start from ⟨hstart, ?_, ?_⟩)
    · exact fun s e h he hp => ⟨sound_step h.1 he, turns_step h.2 h.1 he hp⟩
    · intro address status hget
      rw [hredis] at hget
      cases hget
    · intro worker servers hjob
      rw [hjobs worker] at hjob
      cases hjob
  exact hboth.2.listedOnly

end Runs

section Example

open ServerDiscovery (ipAddress ipAddress_dottedQuad)
open ServerSearch (answer)

/-- One server has failed too often. -/
def twoServers : State where
  store :=
    { db := { Database.empty with
        servers := ⟨[{ pk := 1, ip := 7, port := 10480, listed := true, failures := 12 },
          { pk := 2, ip := 8, port := 10480, listed := true }], by decide⟩ }
      redis := [] }
  jobs _ := none

def unlistedAndRefreshed : List Event :=
  [.loadFailed 1, .unlist 1, .deleteStatus 1, .loadListed 2,
    .storeStatuses 2 fun _ => some (answer "Myt Team")]

theorem serves_twoServers : ∃ t, Run (system plainOutside 12) twoServers unlistedAndRefreshed t ∧
    Serves ipAddress t ∧ ListedOnly t ∧
      (list {} t.store).map (fun shown => shown.1.pk) = [2] := by
  have hidle : ∀ worker, ∀ job ∈ twoServers.jobs worker, job.refreshes = false := by
    rintro _ _ ⟨⟩
  have hunique : UniqueAddresses twoServers.store.db := by
    unfold UniqueAddresses
    decide
  have hturns : Run ((system plainOutside 12).restrict TakesTurns) twoServers
      unlistedAndRefreshed _ :=
    .cons ⟨rfl, hidle⟩ (.cons ⟨⟨_, rfl⟩, trivial⟩ (.cons ⟨⟨_, rfl⟩, trivial⟩
      (.cons ⟨rfl, ?_⟩ (.cons ⟨⟨_, rfl⟩, trivial⟩ (.nil _)))))
  · have hrun := hturns.of_restrict
    obtain ⟨hserves, hlisted⟩ := serves_of_run ipAddress_dottedQuad hunique (by decide) rfl
      (fun _ => rfl) hrun
    exact ⟨_, hrun, hserves, hlisted hturns, by decide +kernel⟩
  · -- only the first worker has unlisted a server, and it is done
    intro other job hjob
    obtain rfl | hne := eq_or_ne other 1
    · cases hjob
    · have hjob : (if other = 1 then none else if other = 1 then some (Job.deleting _) else
          if other = 1 then some (Job.unlisting _) else none) = some job := hjob
      rw [if_neg hne, if_neg hne, if_neg hne] at hjob
      cases hjob

end Example

end StatusCache

end Swat4Stats
