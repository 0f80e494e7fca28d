import Swat4Stats.GameIngestion
import Swat4Stats.MergeGraph

/-!
# Reports that wait while servers are merged

The view accepts a report for an enabled server and puts it into a queue with the bare key of the
server; a worker saves it at any later moment, and merges come in between.
-/

namespace Swat4Stats

set_option autoImplicit false

open Tx Transition

namespace DataStreamView

structure Request where
  ip : IPv4
  port : ℕ
  version : String
  data : GameData

def _getOrCreateServer (ip : IPv4) (port : ℕ) : DbTx Server := do
  let servers ← read fun db => db.servers.rows.filter fun s => s.ip = ip ∧ s.port = port
  match servers with
  | [] => ServerManager.createServer ip port true
  | [server] =>
    if server.enabled then pure server else raise (.apiError "The server is not registered.")
  | _ => raise .multipleObjectsReturned

def _updateServerModVersion (server : Server) (version : String) : DbTx Unit :=
  if server.version = some version then
    pure ()
  else
    write fun db => { db with
      servers := db.servers.update (fun s => s.pk = server.pk)
        (fun s => { s with version := some version }) fun _ => rfl }

/-- The server that the queued task is given. -/
def handle (request : Request) : DbTx ServerId := atomic do
  let server ← _getOrCreateServer request.ip request.port
  _updateServerModVersion server request.version
  pure server.pk

end DataStreamView

namespace StreamRace

open GameIngestion

structure Job where
  serverId : ServerId
  data : GameData
  dataReceivedAt : Time

structure State where
  db : Database
  queue : List Job

/-- `requeue` tells whether the task is delivered once more, as after a retry. -/
inductive Event where
  | post (request : DataStreamView.Request) (receivedAt : Time)
  | execute (index : ℕ) (envs : ℕ → LookupEnv) (fault : Option ℕ) (requeue : Bool)
  | mergeServers (now : Time) (mainId : ServerId) (mergedIds : List ServerId)

def post (request : DataStreamView.Request) (receivedAt : Time) (s : State) : State :=
  match (DataStreamView.handle request).run s.db with
  | (.ok serverId, db) => { db, queue := s.queue ++ [⟨serverId, request.data, receivedAt⟩] }
  | (.error _, db) => { s with db }

def execute (outside : External) (index : ℕ) (envs : ℕ → LookupEnv) (fault : Option ℕ)
    (requeue : Bool) (s : State) : State :=
  match s.queue[index]? with
  | some job =>
    { db :=
        (attempt outside ⟨job.serverId, job.data, job.dataReceivedAt, envs, fault⟩ s.db).2.db
      queue := if requeue then s.queue else s.queue.eraseIdx index }
  | none => s

def system (outside : External) : System State Event where
  enabled _ _ := True
  next s
    | .post request receivedAt => post request receivedAt s
    | .execute index envs fault requeue => execute outside index envs fault requeue s
    | .mergeServers now mainId mergedIds =>
      { s with db := ((Tasks.mergeServers now mainId mergedIds).run s.db).2 }

/-- A report that is not saved yet is only executed while its server is not merged. -/
def InTime (s : State) : Event → Prop
  | .execute index _ _ _ => ∀ job ∈ s.queue[index]?,
      (∀ server ∈ s.db.servers.rows, server.pk = job.serverId → server.mergedInto = none) ∨
      ∃ g ∈ s.db.games.rows, g.tag = some job.data.tag
  | _ => True

def Settled (db : Database) : Prop :=
  ∀ g ∈ db.games.rows, ∀ s ∈ db.servers.rows, s.pk = g.server → s.mergedInto = none

theorem settled_of_invariant {db : Database} (hinv : MergeGraph.Invariant db) : Settled db := by
  intro g hg s hs hpk
  cases hmerged : s.mergedInto with
  | none => rfl
  | some m => exact absurd hpk.symm ((hinv s hs m hmerged).noGames g hg)

theorem invariant_updateServerModVersion {db : Database} (server : Server) (version : String)
    (hinv : MergeGraph.Invariant db) :
    MergeGraph.Invariant ((DataStreamView._updateServerModVersion server version).run db).2 := by
  rw [DataStreamView._updateServerModVersion]
  split
  · exact hinv
  · exact MergeGraph.invariant_update (fun _ => rfl) (fun _ => rfl) hinv

theorem invariant_getOrCreateServer {db : Database} (ip : IPv4) (port : ℕ)
    (hinv : MergeGraph.Invariant db) :
    MergeGraph.Invariant ((DataStreamView._getOrCreateServer ip port).run db).2 := by
  rw [DataStreamView._getOrCreateServer, run_bind, run_read]
  dsimp only
  split
  · exact MergeGraph.invariant_createServer hinv
  · split
    · exact hinv
    · exact hinv
  · exact hinv

theorem invariant_post {s : State} (request : DataStreamView.Request) (receivedAt : Time)
    (hinv : MergeGraph.Invariant s.db) : MergeGraph.Invariant (post request receivedAt s).db := by
  have hhandle : MergeGraph.Invariant ((DataStreamView.handle request).run s.db).2 := by
    rw [DataStreamView.handle, run_atomic, run_bind]
    have hserver := invariant_getOrCreateServer request.ip request.port hinv
    generalize (DataStreamView._getOrCreateServer request.ip request.port).run s.db = r at hserver ⊢
    obtain ⟨e | server, db⟩ := r
    · exact hinv
    · have hversion := invariant_updateServerModVersion server request.version hserver
      simp only [run_bind]
      generalize (DataStreamView._updateServerModVersion server request.version).run db = r
        at hversion ⊢
      obtain ⟨e | _, db'⟩ := r
      · exact hinv
      · exact hversion
  rw [post]
  generalize (DataStreamView.handle request).run s.db = r at hhandle ⊢
  obtain ⟨e | serverId, db⟩ := r
  · exact hhandle
  · exact hhandle

theorem keeps_servers_createGamePlayer (outside : External) (env : LookupEnv) (game : Game)
    (item : PlayerItem) :
    Keeps Database.servers (GameManager.createGamePlayer outside env game item) := by
  have hweapons : ∀ player weapons,
      Keeps Database.servers (GameManager.createPlayerWeapons game player weapons) := by
    intro player weapons
    rw [GameManager.createPlayerWeapons]
    split
    · exact Keeps.pure
    · obtain _ | _ | ⟨x, xs⟩ := weapons
      · exact Keeps.pure
      · exact Keeps.pure
      · change Keeps _ (GameManager.createWeapons player (x :: xs))
        rw [GameManager.createWeapons]
        split
        · exact Keeps.raise
        · exact Keeps.write fun _ => rfl
  rw [GameManager.createGamePlayer]
  split
  · refine Keeps.bind (AliasManager.keeps_matchOrCreate (fun _ _ _ _ _ => rfl) _ _ _ _)
      fun row => ?_
    refine Keeps.bind ?_ fun loadout => Keeps.bind ?_ fun player => hweapons _ _
    · refine Keeps.bind (keeps_getOrCreate (Keeps.statement ?_)) fun _ => Keeps.pure
      rintro db slots db' ⟨⟩
      rfl
    · apply Keeps.statement
      rintro db player db' ⟨⟩
      rfl
  · exact Keeps.raise

theorem keeps_servers_createGame (outside : External) (envs : ℕ → LookupEnv) (server : ServerId)
    (data : GameData) (dateFinished : Time) :
    Keeps Database.servers (GameManager.createGame outside envs server data dateFinished) := by
  have hany : ∀ {β : Type} {xs : Option (List β)} {body : List β → DbTx Unit},
      (∀ ys, Keeps Database.servers (body ys)) → Keeps Database.servers (ifAny xs body) := by
    intro β xs body hbody
    match xs with
    | none | some [] => exact Keeps.pure
    | some (x :: xs) => exact hbody (x :: xs)
  refine Keeps.atomic (Keeps.bind ?_ fun game => ?_)
  · refine Keeps.rescue (Keeps.atomic (Keeps.bind ?_ fun map => Keeps.statement ?_)) fun e => ?_
    · refine Keeps.bind (keeps_getOrCreate (Keeps.statement ?_)) fun _ => Keeps.pure
      rintro db map db' ⟨⟩
      rfl
    · intro db game db' hcreate
      split at hcreate
      · cases hcreate
      · cases hcreate
        rfl
    · split
      · exact Keeps.raise
      · exact Keeps.rethrow
  · refine Keeps.bind (hany fun procedures => Keeps.write fun _ => rfl) fun _ =>
      Keeps.bind (hany fun objectives => ?_) fun _ => Keeps.bind (hany fun players => ?_)
        fun _ => Keeps.pure
    · rw [GameManager._createGameObjectives]
      split
      · exact Keeps.raise
      · exact Keeps.write fun _ => rfl
    · exact Keeps.forEach fun entry _ => keeps_servers_createGamePlayer _ _ _ _

theorem servers_attempt (outside : External) (e : Delivery) (db : Database) :
    (attempt outside e db).2.db.servers = db.servers := by
  have hkeeps : Keeps Database.servers
      (Tasks.processGameData outside e.envs e.serverId e.data e.dataReceivedAt) := by
    refine Keeps.read.bind fun server => ?_
    cases server with
    | none => exact Keeps.raise
    | some server =>
      refine Keeps.rescue (Keeps.bind (keeps_servers_createGame _ _ _ _ _) fun _ => Keeps.pure)
        fun e => ?_
      unfold Tasks.handleCreateError
      split
      · exact Keeps.pure
      · exact Keeps.pure
  exact hkeeps ⟨db, e.fault⟩

theorem invariant_execute {outside : External} {s : State} {index : ℕ} {envs : ℕ → LookupEnv}
    {fault : Option ℕ} {requeue : Bool} (hinv : MergeGraph.Invariant s.db)
    (hsafe : InTime s (.execute index envs fault requeue)) :
    MergeGraph.Invariant (execute outside index envs fault requeue s).db := by
  rw [execute]
  cases hjob : s.queue[index]? with
  | none => exact hinv
  | some job =>
    obtain hunmerged | ⟨g, hg, htag⟩ := hsafe job hjob
    all_goals
      obtain ⟨game, _, hins, hsaved⟩ | ⟨_, hdb⟩ :=
        attempt_cases outside ⟨job.serverId, job.data, job.dataReceivedAt, envs, fault⟩ s.db
    · apply MergeGraph.invariant_of_newGame hinv (servers_attempt _ _ _) hsaved.games
      rw [hins.server]
      exact hunmerged
    · dsimp only
      rwa [hdb]
    · exact absurd htag (hins.untagged g hg)
    · dsimp only
      rwa [hdb]

/-- An execution that saves a game of a merged server is what the condition excludes. -/
theorem not_settled_of_late {outside : External} {s : State} {index : ℕ} {job : Job}
    {envs : ℕ → LookupEnv} {fault : Option ℕ} {requeue : Bool} {game : Game}
    (hjob : s.queue[index]? = some job)
    (hsaved : (attempt outside ⟨job.serverId, job.data, job.dataReceivedAt, envs, fault⟩ s.db).1 =
      .ok (.saved game))
    (hmerged : ∃ server ∈ s.db.servers.rows, server.pk = job.serverId ∧
      server.mergedInto ≠ none) :
    ¬ Settled (execute outside index envs fault requeue s).db := by
  obtain ⟨server, hserver, hpk, hsome⟩ := hmerged
  rw [execute, hjob]
  intro hsettled
  obtain ⟨game', hsaved', hins, hadded⟩ | ⟨hne, _⟩ :=
    attempt_cases outside ⟨job.serverId, job.data, job.dataReceivedAt, envs, fault⟩ s.db
  · refine hsome (hsettled game' ?_ server ?_ (hpk.trans hins.server.symm))
    · have hgames := hadded.games
      exact hgames.symm ▸ List.mem_append_right _ (by simp)
    · rwa [servers_attempt]
  · exact hne game hsaved

theorem invariant_run {outside : External} {s₀ s : State} {es : List Event}
    (hinit : ∀ server ∈ s₀.db.servers.rows, server.mergedInto = none)
    (hrun : Run ((system outside).restrict InTime) s₀ es s) : MergeGraph.Invariant s.db := by
  have hstep : ∀ s e, MergeGraph.Invariant s.db → (system outside).enabled s e → InTime s e →
      MergeGraph.Invariant ((system outside).next s e).db := by
    intro s e hinv _ hsafe
    cases e with
    | post request receivedAt => exact invariant_post request receivedAt hinv
    | execute index envs fault requeue => exact invariant_execute hinv hsafe
    | mergeServers now mainId mergedIds => exact MergeGraph.invariant_mergeServers hinv
  exact Run.invariant_restrict (M := system outside) hstep hrun
    (MergeGraph.invariant_of_unmerged hinit)

/-- No game ends up on a merged server as long as every report is saved before its server is
merged. -/
theorem settled_of_run {outside : External} {s₀ s : State} {es : List Event}
    (hinit : ∀ server ∈ s₀.db.servers.rows, server.mergedInto = none)
    (hrun : Run ((system outside).restrict InTime) s₀ es s) : Settled s.db :=
  settled_of_invariant (invariant_run hinit hrun)

def sampleState : State := ⟨Database.empty, []⟩

def sampleRequest (ip : IPv4) : DataStreamView.Request := ⟨ip, 10480, "1.2.0", sampleData⟩

def sampleEnvs (_ : ℕ) : LookupEnv where
  whois := some ⟨none, none, 0, 0xFFFFFF⟩
  clock _ := 0

def savedInTime : List Event :=
  [.post (sampleRequest 1) 1000, .post (sampleRequest 2) 1001,
    .execute 0 sampleEnvs none false, .mergeServers 1002 2 [1]]

def savedLate : List Event :=
  [.post (sampleRequest 1) 1000, .post (sampleRequest 2) 1001, .mergeServers 1002 2 [1],
    .execute 0 sampleEnvs none false]

theorem settled_of_savedInTime :
    (savedInTime.foldl (system plainOutside).next sampleState).db.games.rows.map Game.server =
      [2] ∧
    Settled (savedInTime.foldl (system plainOutside).next sampleState).db := by
  have hsafe : InTime
      ((system plainOutside).next ((system plainOutside).next sampleState
        (.post (sampleRequest 1) 1000)) (.post (sampleRequest 2) 1001))
      (.execute 0 sampleEnvs none false) := by
    rintro job ⟨⟩
    exact .inl (by decide)
  have hrun : Run ((system plainOutside).restrict InTime) sampleState savedInTime
      (savedInTime.foldl (system plainOutside).next sampleState) :=
    .cons ⟨trivial, trivial⟩ (.cons ⟨trivial, trivial⟩ (.cons ⟨trivial, hsafe⟩
      (.cons ⟨trivial, trivial⟩ (.nil _))))
  exact ⟨by decide +kernel, settled_of_run (by decide) hrun⟩

/-- A report that is still queued when its server is merged ends up on the merged server. -/
theorem savedLate_on_merged_server :
    ∃ s, Run (system plainOutside) sampleState savedLate s ∧ ¬ Settled s.db := by
  have hlate : ∃ g ∈ (savedLate.foldl (system plainOutside).next sampleState).db.games.rows,
      ∃ server ∈ (savedLate.foldl (system plainOutside).next sampleState).db.servers.rows,
        server.pk = g.server ∧ server.mergedInto ≠ none := by
    decide +kernel
  refine ⟨_, .cons trivial (.cons trivial (.cons trivial (.cons trivial (.nil _)))), ?_⟩
  intro hsettled
  obtain ⟨g, hg, server, hserver, hpk, hmerged⟩ := hlate
  exact hmerged (hsettled g hg server hserver hpk)

end StreamRace

end Swat4Stats
