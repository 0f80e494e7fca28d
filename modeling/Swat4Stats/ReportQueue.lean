import Swat4Stats.ReportFormats

/-!
# From the text of a report to the tables

Reports come as requests or as the lines of a file that is imported, are queued, and are saved by
workers that may fail and try again. Whatever raises an integrity error on the way, a report is
taken for saved only if its tag is.
-/

namespace Swat4Stats

set_option autoImplicit false

open Tx Transition

namespace ReportQueue

open GameIngestion GameManager

section Throws

variable {P : Database → Prop}

/-- Every error but the one that takes a game for saved. -/
def IsOther (e : TrackerError) : Prop := e ≠ .gameAlreadySavedError

theorem throws_getOrCreate {α : Type} {select : Database → List α} {pk : α → ℕ}
    {create : DbTx ℕ} {E : TrackerError → Prop} (hcreate : Throws create (fun _ => True) E)
    (hmultiple : E .multipleObjectsReturned) : Throws (getOrCreate select pk create) P E := by
  refine Throws.read.seq fun found => ?_
  match found with
  | [] => exact hcreate.atomic.seq fun _ => Throws.pure
  | [x] => exact Throws.pure
  | _ :: _ :: _ => exact Throws.raise hmultiple

theorem throws_matchProvider (pick : ℕ) (whois : Option WhoisQueryResult) (ip : IPv4) :
    Throws (ISPManager.matchOrCreate pick whois ip) P IsOther := by
  have hobtain : ∀ name country,
      Throws (ISPManager.obtainIsp name country) (fun _ => True) IsOther := by
    intro name country
    cases name with
    | none => exact Throws.statement_ok.seq fun _ => Throws.pure
    | some name => exact throws_getOrCreate Throws.statement_ok (by rintro ⟨⟩)
  have hwhois : ∀ fallback,
      Throws (ISPManager.matchByWhois whois fallback) (fun _ => True) IsOther := by
    intro fallback
    cases whois with
    | none => exact Throws.pure
    | some network =>
      refine Throws.atomic (Throws.read.seq fun known => ?_)
      match known with
      | some _ => exact Throws.pure
      | none =>
        refine (Throws.atomic Throws.statement_ok).seq fun _ => (hobtain _ _).seq fun _ => ?_
        exact Throws.write.seq fun _ => Throws.pure
  refine Throws.read.seq fun matched => ?_
  match matched with
  | none => exact hwhois none
  | some (isp, length) =>
    obtain hlength | hlength := Decidable.em (length > ISPManager.acceptedIpLength)
    · simp only [hlength, if_true]
      exact hwhois isp
    · simp only [hlength, if_false]
      exact Throws.pure

theorem throws_matchSteps (outside : External) (env : LookupEnv) (position : ℕ)
    (steps : List MatchStep) :
    Throws (ProfileManager.matchSteps outside env position steps) P IsOther := by
  induction steps generalizing position P with
  | nil => exact Throws.pure
  | cons step steps ih =>
    refine Throws.read.seq fun matched => ?_
    cases matched with
    | some profile => exact Throws.pure
    | none => exact ih (position + 1)

theorem throws_matchAlias (outside : External) (env : LookupEnv) (name ip : Text) :
    Throws (AliasManager.matchOrCreate outside env name ip) P IsOther := by
  have hprofile : ∀ ip isp country, Throws
      (ProfileManager.matchSmartOrCreate outside env name ip isp country) (fun _ => True)
      IsOther := by
    intro ip isp country
    refine (throws_matchSteps outside env 0 _).seq fun matched => ?_
    cases matched with
    | some profile => exact Throws.pure
    | none => exact Throws.statement_ok.seq fun _ => Throws.pure
  rw [AliasManager.matchOrCreate]
  split
  · exact Throws.raise (by rintro ⟨⟩)
  · split
    · exact Throws.raise (by rintro ⟨⟩)
    · refine (throws_matchProvider _ _ _).seq fun _ => Throws.read.seq fun country => ?_
      refine Throws.read.seq fun matched => ?_
      cases matched with
      | some row => exact Throws.pure
      | none =>
        refine Throws.seq (Throws.atomic ((hprofile _ _ _).seq fun _ => ?_)) fun _ => Throws.pure
        exact Throws.statement_ok.seq fun _ => Throws.write.seq fun _ => Throws.pure

theorem isOther_of_mapM {α β : Type} {f : α → Except TrackerError β} {items : List α}
    {e : TrackerError} (hf : ∀ item e, f item = .error e → IsOther e)
    (h : items.mapM f = .error e) : IsOther e := by
  induction items with
  | nil => cases h
  | cons item items ih =>
    rw [List.mapM_cons] at h
    cases hitem : f item with
    | error e' =>
      simp only [hitem, bind, Except.bind] at h
      obtain rfl := Except.error.inj h
      exact hf item _ hitem
    | ok b =>
      cases hitems : items.mapM f with
      | error e' =>
        simp only [hitem, hitems, bind, Except.bind] at h
        obtain rfl := Except.error.inj h
        exact ih hitems
      | ok bs =>
        simp only [hitem, hitems, bind, Except.bind, pure, Except.pure] at h
        cases h

theorem isOther_of_newObjective {game : Game} (item : ObjectiveItem) (e : TrackerError)
    (h : newObjective game item = .error e) : IsOther e := by
  rw [newObjective, Schema.objectivesReversed] at h
  split at h
  · cases h
  · cases h
    rintro ⟨⟩

theorem isOther_of_newWeapon {player : PlayerId} (item : WeaponItem) (name : Equipment)
    (e : TrackerError) (h : newWeapon player item name = .error e) : IsOther e := by
  rw [newWeapon] at h
  cases name with
  | none =>
    cases h
    rintro ⟨⟩
  | _ => cases h

theorem throws_ifAny {β : Type} {xs : Option (List β)} {body : List β → DbTx Unit}
    {E : TrackerError → Prop} (h : ∀ ys, Throws (body ys) P E) : Throws (ifAny xs body) P E := by
  match xs with
  | none | some [] => exact Throws.pure
  | some (x :: xs) => exact h (x :: xs)

theorem throws_createGameObjectives (game : Game) (objectives : List ObjectiveItem) :
    Throws (_createGameObjectives game objectives) P IsOther := by
  rw [_createGameObjectives]
  cases hrows : objectives.mapM (newObjective game) with
  | error e => exact Throws.raise (isOther_of_mapM isOther_of_newObjective hrows)
  | ok rows => exact Throws.write

theorem throws_createWeapons (player : PlayerId) (items : List WeaponItem) :
    Throws (createWeapons player items) P IsOther := by
  rw [createWeapons]
  cases hrows : newWeapons player items with
  | error e =>
    refine Throws.raise (isOther_of_mapM (fun known e he => ?_) hrows)
    exact isOther_of_newWeapon known.1 known.2 e he
  | ok rows => exact Throws.write

theorem throws_createGamePlayer (outside : External) (env : LookupEnv) (game : Game)
    (item : PlayerItem) : Throws (createGamePlayer outside env game item) P IsOther := by
  have hloadout : Throws (LoadoutManager.obtain item.loadout) (fun _ => True) IsOther :=
    (throws_getOrCreate Throws.statement_ok (by rintro ⟨⟩)).seq fun _ => Throws.pure
  rw [createGamePlayer]
  split
  · refine (throws_matchAlias outside env _ _).seq fun row => hloadout.seq fun loadout => ?_
    refine Throws.statement_ok.seq fun player => ?_
    rw [createPlayerWeapons]
    split
    · exact Throws.pure
    · exact throws_ifAny fun items => throws_createWeapons player items
  · exact Throws.raise (by rintro ⟨⟩)

/-- The tag is among those of the games. -/
def HasTag (games : Table Game Game.pk) (tag : String) : Prop :=
  ∃ g ∈ games.rows, g.tag = some tag

theorem throws_createUnlessSaved (games : Table Game Game.pk) (outside : External)
    (server : ServerId) (data : GameData) (dateFinished : Time) :
    Throws (createUnlessSaved outside server data dateFinished) (fun db => db.games = games)
      fun e => e = .gameAlreadySavedError → HasTag games data.tag := by
  -- the only integrity error of the block is the one about the tag
  have hblock : Throws (createAtomically outside server data dateFinished)
      (fun db => db.games = games) fun e =>
        IsOther e ∧ ∀ constraint, e = .integrityError constraint → HasTag games data.tag := by
    have hmap : Throws (MapManager.obtainFor outside data.mapname) (fun db => db.games = games)
        fun e => IsOther e ∧ ∀ constraint, e = .integrityError constraint →
          HasTag games data.tag := by
      refine (throws_getOrCreate Throws.statement_ok ⟨?_, ?_⟩).seq fun _ => Throws.pure
      · rintro ⟨⟩
      · rintro constraint ⟨⟩
    have hkeeps : Keeps Database.games (MapManager.obtainFor outside data.mapname) := by
      refine Keeps.bind (keeps_getOrCreate (Keeps.statement ?_)) fun _ => Keeps.pure
      rintro db map db' ⟨⟩
      rfl
    refine Throws.atomic (hmap.bind (hkeeps.ensures (· = games)) fun map => ?_)
    apply Throws.statement
    rintro db e rfl hcreate
    split at hcreate
    · rename_i htag
      cases hcreate
      refine ⟨by rintro ⟨⟩, fun constraint _ => htag.2⟩
    · cases hcreate
  refine hblock.rescue fun e he => ?_
  split
  · exact Throws.raise fun _ => (he _ rfl).2 _ rfl
  · refine Throws.rethrow fun x hx hsaved => ?_
    exact absurd hsaved (he x hx).1

theorem throws_createGame (games : Table Game Game.pk) (outside : External)
    (envs : ℕ → LookupEnv) (server : ServerId) (data : GameData) (dateFinished : Time) :
    Throws (createGame outside envs server data dateFinished) (fun db => db.games = games)
      fun e => e = .gameAlreadySavedError → HasTag games data.tag := by
  have hother : ∀ e, IsOther e → e = .gameAlreadySavedError → HasTag games data.tag :=
    fun e he hsaved => absurd hsaved he
  refine Throws.atomic ((throws_createUnlessSaved games outside server data dateFinished).seq
    fun game => ?_)
  refine Throws.mono (E := IsOther) ?_ (fun _ h => h) hother
  refine (throws_ifAny fun procedures => Throws.write).seq fun _ => ?_
  refine (throws_ifAny fun objectives => throws_createGameObjectives game objectives).seq
    fun _ => ?_
  refine (throws_ifAny fun players => Throws.forEach fun entry _ => ?_).seq fun _ => Throws.pure
  exact throws_createGamePlayer outside _ game entry.1

/-- What a task takes for saved is saved. -/
theorem hasTag_of_alreadySaved {outside : External} {e : Delivery} {db : Database}
    (h : (attempt outside e db).1 = .ok .alreadySaved) : HasTag db.games e.data.tag := by
  rw [attempt, Tasks.processGameData, exec_bind, exec_read] at h
  obtain hfault | hfault := Decidable.em (e.fault = some 0)
  · rw [if_pos hfault] at h
    cases h
  · rw [if_neg hfault] at h
    cases hserver : db.servers.find? e.serverId with
    | none =>
      rw [hserver] at h
      cases h
    | some server =>
      simp only [hserver, Tasks.createGameOrRetry, exec_rescue, exec_bind] at h
      cases hcreate : (createGame outside e.envs server.pk e.data e.dataReceivedAt).exec
          ⟨db, e.fault.map (· - 1)⟩ with
      | mk result s =>
        rw [hcreate] at h
        cases result with
        | ok game => cases h
        | error error =>
          cases error with
          | fault => cases h
          | raised error =>
            cases error with
            | gameAlreadySavedError =>
              exact throws_createGame db.games outside _ _ _ _ _ _ _ rfl hcreate rfl
            | _ => cases h

end Throws

/-- What the tables say about the reports, whichever server a game has been moved to. -/
structure Reports where
  games : List Game
  procedures : List Procedure
  objectives : List Objective
  players : List Player
  weapons : List Weapon

def reportsOf (db : Database) : Reports where
  games := db.games.rows.map fun g => { g with server := 0 }
  procedures := db.procedures.rows
  objectives := db.objectives.rows
  players := db.players.rows
  weapons := db.weapons.rows

section Reports

variable {db db' : Database}

theorem reportsOf_of_gameTables (h : gameTables db' = gameTables db) :
    reportsOf db' = reportsOf db := by
  have hgames := congrArg GameTables.games h
  have hprocedures := congrArg GameTables.procedures h
  have hobjectives := congrArg GameTables.objectives h
  have hplayers := congrArg GameTables.players h
  have hweapons := congrArg GameTables.weapons h
  simp only [gameTables] at hgames hprocedures hobjectives hplayers hweapons
  simp only [reportsOf, hgames, hprocedures, hobjectives, hplayers, hweapons]

theorem exists_of_reportsOf (h : reportsOf db' = reportsOf db) {g' : Game}
    (hg' : g' ∈ db'.games.rows) : ∃ g ∈ db.games.rows, g' = { g with server := g'.server } := by
  have hmem : { g' with server := 0 } ∈ (reportsOf db).games := by
    rw [← h]
    exact List.mem_map_of_mem hg'
  obtain ⟨g, hg, heq⟩ := List.mem_map.mp hmem
  refine ⟨g, hg, ?_⟩
  calc
    g' = { ({ g' with server := 0 } : Game) with server := g'.server } := rfl
    _ = { ({ g with server := 0 } : Game) with server := g'.server } := by rw [heq]

theorem hasTag_of_reportsOf (h : reportsOf db' = reportsOf db) {tag : String}
    (htag : HasTag db'.games tag) : HasTag db.games tag := by
  obtain ⟨g', hg', htag⟩ := htag
  obtain ⟨g, hg, heq⟩ := exists_of_reportsOf h hg'
  rw [heq] at htag
  exact ⟨g, hg, htag⟩

theorem stored_of_reportsOf (h : reportsOf db' = reportsOf db) {g : Game} {data : GameData}
    (server : ServerId) (hstored : Stored (gameTables db) g data) :
    Stored (gameTables db') { g with server } data := by
  have hprocedures : db'.procedures.rows = db.procedures.rows := congrArg Reports.procedures h
  have hobjectives : db'.objectives.rows = db.objectives.rows := congrArg Reports.objectives h
  have hplayers : db'.players.rows = db.players.rows := congrArg Reports.players h
  have hweapons : db'.weapons.rows = db.weapons.rows := congrArg Reports.weapons h
  obtain ⟨⟨_, dateFinished, map, hrow⟩, hproc, hobj, hplay, hweap⟩ := hstored
  refine ⟨⟨server, dateFinished, map, ?_⟩, ?_, ?_, ?_, ?_⟩
  · exact congrArg (fun row : Game => { row with server }) hrow
  · rw [proceduresOf, gameTables, hprocedures]
    exact hproc
  · rw [objectivesOf, gameTables, hobjectives]
    exact hobj
  · rw [playersOf, gameTables, hplayers]
    exact hplay
  · simp only [playersOf, weaponsOf, gameTables, hplayers, hweapons]
    exact hweap

theorem invariant_of_reportsOf {accepted : GameData → Prop} (h : reportsOf db' = reportsOf db)
    (hinv : Invariant accepted (gameTables db)) : Invariant accepted (gameTables db') := by
  have hgame : ∀ {k}, (∃ g ∈ db.games.rows, g.pk = k) → ∃ g ∈ db'.games.rows, g.pk = k := by
    rintro _ ⟨g, hg, rfl⟩
    obtain ⟨g', hg', heq⟩ := exists_of_reportsOf h.symm hg
    rw [heq]
    exact ⟨g', hg', rfl⟩
  have hprocedures : db'.procedures.rows = db.procedures.rows := congrArg Reports.procedures h
  have hobjectives : db'.objectives.rows = db.objectives.rows := congrArg Reports.objectives h
  have hplayers : db'.players.rows = db.players.rows := congrArg Reports.players h
  have hweapons : db'.weapons.rows = db.weapons.rows := congrArg Reports.weapons h
  refine ⟨?_, ?_, ?_, ?_, ?_, ?_⟩
  · intro g₁' hg₁' g₂' hg₂' htags
    obtain ⟨g₁, hg₁, heq₁⟩ := exists_of_reportsOf h hg₁'
    obtain ⟨g₂, hg₂, heq₂⟩ := exists_of_reportsOf h hg₂'
    have heq : g₁ = g₂ := by
      apply hinv.tags g₁ hg₁ g₂ hg₂
      rw [heq₁, heq₂] at htags
      exact htags
    apply db'.games.eq_of_key_eq hg₁' hg₂'
    rw [heq₁, heq₂, heq]
  · intro g' hg'
    obtain ⟨g, hg, heq⟩ := exists_of_reportsOf h hg'
    obtain ⟨data, hdata, hstored⟩ := hinv.stored g hg
    rw [heq]
    exact ⟨data, hdata, stored_of_reportsOf h g'.server hstored⟩
  · intro row hrow
    exact hgame (hinv.procedures row (hprocedures ▸ hrow))
  · intro row hrow
    exact hgame (hinv.objectives row (hobjectives ▸ hrow))
  · intro row hrow
    exact hgame (hinv.players row (hplayers ▸ hrow))
  · intro w hw
    obtain ⟨p, hp, hpk⟩ := hinv.weapons w (hweapons ▸ hw)
    exact ⟨p, hplayers.symm ▸ hp, hpk⟩

/-- A merge moves games, and leaves the reports as they are. -/
theorem reportsOf_mergeServers (now : Time) (mainId : ServerId) (mergedIds : List ServerId)
    (db : Database) :
    reportsOf ((Tasks.mergeServers now mainId mergedIds).run db).2 = reportsOf db := by
  obtain ⟨_, key, hrun⟩ | ⟨message, hrun⟩ | ⟨_, _, _, _, _, _, db', hrun, h⟩ :=
    Tasks.run_mergeServers now mainId mergedIds db
  · rw [hrun]
  · rw [hrun]
  · rw [hrun, h.frame]
    simp only [reportsOf, h.games, List.map_map]
    congr 1
    apply List.map_congr_left
    intro g _
    simp only [Function.comp_apply]
    split <;> rfl

end Reports

structure State where
  store : StreamRace.State
  /-- What each importer has still to read of its file. -/
  imports : ℕ → List Text
  /-- The tasks that were ever queued. -/
  accepted : List StreamRace.Job
  /-- The tasks that were given up. -/
  failed : List StreamRace.Job

/-- `elsewhere` stands for everything that leaves the reports alone. -/
inductive Event where
  | post (ip : IPv4) (contentType : ContentType) (body : Text) (receivedAt : Time)
  | startImport (importer : ℕ) (lines : List Text)
  | importLine (importer : ℕ) (receivedAt : Time)
  | cutOff (importer : ℕ)
  | execute (index : ℕ) (envs : ℕ → LookupEnv) (fault : Option ℕ) (requeue : Bool)
  | elsewhere (db : Database)

/-- A task that ends otherwise is retried or given up. -/
def isSaved : Except (Failure TrackerError) Tasks.TaskOutcome → Bool
  | .ok (.saved _) | .ok .alreadySaved => true
  | .ok (.retry _) | .error _ => false

section System

variable (outside : External) (quote : Text → Text) (literals : Json.Literals)

def post (ip : IPv4) (contentType : ContentType) (body : Text) (receivedAt : Time) (s : State) :
    Except (Failure TrackerError) Text × State :=
  let (response, store) := DataStreamView.post quote literals ip contentType body receivedAt s.store
  (response, { s with
    store, accepted := s.accepted ++ store.queue.drop s.store.queue.length })

/-- The importer posts from the same machine. -/
def localhost : IPv4 := 0x7F000001

/-- One turn of the loop over the lines. What the view raises ends the command. -/
def importLine (importer : ℕ) (receivedAt : Time) (s : State) : State :=
  match s.imports importer with
  | [] => s
  | line :: lines =>
    let rest := { s with imports := Function.update s.imports importer lines }
    let normalizedLine := Text.strip line
    if normalizedLine = [] then rest
    else
      match post quote literals localhost .other normalizedLine receivedAt rest with
      | (.ok _, s') => s'
      | (.error _, s') => { s' with imports := Function.update s'.imports importer [] }

def execute (index : ℕ) (envs : ℕ → LookupEnv) (fault : Option ℕ) (requeue : Bool) (s : State) :
    State :=
  match s.store.queue[index]? with
  | none => s
  | some job =>
    let result := (attempt outside
      ⟨job.serverId, job.data, job.dataReceivedAt, envs, fault⟩ s.store.db).1
    { s with
      store := StreamRace.execute outside index envs fault requeue s.store
      failed := if requeue ∨ isSaved result then s.failed else s.failed ++ [job] }

def system : System State Event where
  enabled s
    | .elsewhere db => reportsOf db = reportsOf s.store.db
    | _ => True
  next s
    | .post ip contentType body receivedAt =>
      (post quote literals ip contentType body receivedAt s).2
    | .startImport importer lines =>
      { s with imports := Function.update s.imports importer lines }
    | .importLine importer receivedAt => importLine quote literals importer receivedAt s
    | .cutOff importer => { s with imports := Function.update s.imports importer [] }
    | .execute index envs fault requeue => execute outside index envs fault requeue s
    | .elsewhere db => { s with store := { s.store with db } }

end System

/-- The bodies that an event hands to the view, now or later. -/
def Event.Submits (contentType : ContentType) (body : Text) : Event → Prop
  | .post _ contentType' body' _ => contentType = contentType' ∧ body = body'
  | .startImport _ lines => contentType = .other ∧ body ∈ lines.map Text.strip
  | _ => False

/-- The schema reads this report from the body. -/
def Reads (quote : Text → Text) (literals : Json.Literals) (contentType : ContentType)
    (body : Text) (data : GameData) : Prop :=
  ∃ value ∈ decodeBody literals contentType body, Schema.gameSchema quote value = some data

/-- The tasks that are queued, and the lines that are still to be imported, hold known reports. -/
structure Settled (quote : Text → Text) (literals : Json.Literals) (known : String → Prop)
    (s : State) : Prop where
  queued : ∀ job ∈ s.store.queue, known job.data.tag
  imports : ∀ importer, ∀ line ∈ s.imports importer, ∀ data,
    Reads quote literals .other (Text.strip line) data → known data.tag

structure IsFresh (s : State) : Prop where
  tables : gameTables s.store.db = GameTables.empty
  queue : s.store.queue = []
  imports : ∀ importer, s.imports importer = []
  accepted : s.accepted = []

/-- What a state owes to the bodies `texts` that were handed in. -/
structure Invariant (quote : Text → Text) (literals : Json.Literals)
    (texts : ContentType → Text → Prop) (s : State) : Prop where
  tables : GameIngestion.Invariant (fun data => ∃ job ∈ s.accepted, job.data = data)
    (gameTables s.store.db)
  queued : ∀ job ∈ s.store.queue, job ∈ s.accepted
  accounted : ∀ job ∈ s.accepted,
    job ∈ s.store.queue ∨ job ∈ s.failed ∨ HasTag s.store.db.games job.data.tag
  read : ∀ job ∈ s.accepted,
    ∃ contentType body, texts contentType body ∧ Reads quote literals contentType body job.data
  imports : ∀ importer, ∀ line ∈ s.imports importer, texts .other (Text.strip line)

section Step

variable {outside : External} {quote : Text → Text} {literals : Json.Literals}
  {texts : ContentType → Text → Prop} {s : State}

theorem keeps_handle (request : DataStreamView.Request) :
    Keeps gameTables (DataStreamView.handle request) := by
  refine Keeps.atomic (Keeps.bind ?_ fun server => Keeps.bind ?_ fun _ => Keeps.pure)
  · refine Keeps.read.bind fun servers => ?_
    match servers with
    | [] =>
      change Keeps _ (ServerManager.createServer _ _ _)
      refine Keeps.read.bind fun taken => ?_
      split
      · exact Keeps.raise
      · apply Keeps.statement
        rintro db server db' ⟨⟩
        rfl
    | [server] =>
      dsimp only
      split
      · exact Keeps.pure
      · exact Keeps.raise
    | _ :: _ :: _ => exact Keeps.raise
  · rw [DataStreamView._updateServerModVersion]
    split
    · exact Keeps.pure
    · exact Keeps.write fun _ => rfl

/-- A request adds at most the report it was read from to the queue. -/
theorem post_cases (quote : Text → Text) (literals : Json.Literals) (ip : IPv4)
    (contentType : ContentType) (body : Text) (receivedAt : Time) (store : StreamRace.State) :
    let store' := (DataStreamView.post quote literals ip contentType body receivedAt store).2
    gameTables store'.db = gameTables store.db ∧
      (store'.queue = store.queue ∨ ∃ job, store'.queue = store.queue ++ [job] ∧
        Reads quote literals contentType body job.data) := by
  rw [DataStreamView.post, withJuliaSchema]
  cases hdecoded : decodeBody literals contentType body with
  | none => exact ⟨rfl, .inl rfl⟩
  | some value =>
    cases hrequest : Schema.requestSchema quote ip value with
    | none => simp [hrequest]
    | some request =>
      have hkeeps := (keeps_handle request).run store.db
      simp only [Option.bind_some, hrequest, StreamRace.post]
      generalize (DataStreamView.handle request).run store.db = r at hkeeps ⊢
      obtain ⟨_ | serverId, db⟩ := r
      · exact ⟨hkeeps, .inl rfl⟩
      · refine ⟨hkeeps, .inr ⟨_, rfl, value, hdecoded, ?_⟩⟩
        simp only [Schema.requestSchema, Option.bind_eq_bind, Option.bind_eq_some_iff] at hrequest
        obtain ⟨data, hdata, _, _, _, _, _, _, hsome⟩ := hrequest
        cases hsome
        exact hdata

theorem invariant_of_tables {accepted accepted' : GameData → Prop} {t : GameTables}
    (hinv : GameIngestion.Invariant accepted t) (h : ∀ data, accepted data → accepted' data) :
    GameIngestion.Invariant accepted' t where
  tags := hinv.tags
  stored g hg := by
    obtain ⟨data, hdata, hstored⟩ := hinv.stored g hg
    exact ⟨data, h data hdata, hstored⟩
  procedures := hinv.procedures
  objectives := hinv.objectives
  players := hinv.players
  weapons := hinv.weapons

theorem invariant_post (hinv : Invariant quote literals texts s) (ip : IPv4)
    {contentType : ContentType} {body : Text} (receivedAt : Time) (htext : texts contentType body) :
    Invariant quote literals texts (post quote literals ip contentType body receivedAt s).2 := by
  have hcases := post_cases quote literals ip contentType body receivedAt s.store
  rw [post]
  generalize
    DataStreamView.post quote literals ip contentType body receivedAt s.store = r at hcases ⊢
  obtain ⟨response, store⟩ := r
  obtain ⟨htables, hqueue | ⟨job, hqueue, hread⟩⟩ := hcases
  all_goals
    have hgames : store.db.games = s.store.db.games := congrArg GameTables.games htables
    simp only at htables hqueue ⊢
  · rw [hqueue, List.drop_length, List.append_nil]
    refine ⟨by rw [htables]; exact hinv.tables, ?_, ?_, hinv.read, hinv.imports⟩
    · rw [hqueue]
      exact hinv.queued
    · rw [hqueue, hgames]
      exact hinv.accounted
  · rw [hqueue, List.drop_left]
    refine ⟨?_, ?_, ?_, ?_, hinv.imports⟩
    · rw [htables]
      apply invariant_of_tables hinv.tables
      rintro data ⟨job', hjob', hdata⟩
      exact ⟨job', List.mem_append_left _ hjob', hdata⟩
    · rw [hqueue]
      intro job' hjob'
      obtain hjob' | hjob' := List.mem_append.mp hjob'
      · exact List.mem_append_left _ (hinv.queued job' hjob')
      · exact List.mem_append_right _ hjob'
    · rw [hqueue, hgames]
      intro job' hjob'
      obtain hjob' | hjob' := List.mem_append.mp hjob'
      · exact (hinv.accounted job' hjob').imp_left fun h => List.mem_append_left _ h
      · exact .inl (List.mem_append_right _ hjob')
    · intro job' hjob'
      obtain hjob' | hjob' := List.mem_append.mp hjob'
      · exact hinv.read job' hjob'
      · obtain rfl := List.mem_singleton.mp hjob'
        exact ⟨contentType, body, htext, hread⟩

theorem invariant_imports (hinv : Invariant quote literals texts s) (importer : ℕ)
    {lines : List Text} (hlines : ∀ line ∈ lines, texts .other (Text.strip line)) :
    Invariant quote literals texts
      { s with imports := Function.update s.imports importer lines } where
  tables := hinv.tables
  queued := hinv.queued
  accounted := hinv.accounted
  read := hinv.read
  imports other line hline := by
    obtain rfl | hne := eq_or_ne other importer
    · simp only [Function.update_self] at hline
      exact hlines line hline
    · simp only [Function.update_of_ne hne] at hline
      exact hinv.imports other line hline

theorem invariant_importLine (hinv : Invariant quote literals texts s) (importer : ℕ)
    (receivedAt : Time) :
    Invariant quote literals texts (importLine quote literals importer receivedAt s) := by
  rw [importLine]
  cases hlines : s.imports importer with
  | nil => exact hinv
  | cons line lines =>
    have hall := hinv.imports importer
    rw [hlines] at hall
    have hrest := invariant_imports hinv importer fun l hl => hall l (List.mem_cons_of_mem _ hl)
    simp only
    split
    · exact hrest
    · have hpost := invariant_post hrest localhost receivedAt (hall line List.mem_cons_self)
      generalize post quote literals localhost .other (Text.strip line) receivedAt _ = r at hpost ⊢
      obtain ⟨_ | response, s'⟩ := r
      · exact invariant_imports hpost importer (List.forall_mem_nil _)
      · exact hpost

/-- A task saves a game, or it leaves the database as it was, where its tag is stored already or
the task is retried or given up. -/
theorem delivery_cases (outside : External) (e : Delivery) (db : Database) :
    (∃ game, isSaved (attempt outside e db).1 = true ∧
      Inserted (gameTables db) e.serverId e.data game ∧
      Saved (gameTables db) (gameTables (attempt outside e db).2.db) game
        (e.data.coopProcedures.getD []) (e.data.coopObjectives.getD [])
        (e.data.players.getD [])) ∨
    (attempt outside e db).2.db = db ∧
      (isSaved (attempt outside e db).1 = true → HasTag db.games e.data.tag) := by
  obtain ⟨game, hsaved, hins, hadded⟩ | ⟨hne, hdb⟩ := attempt_cases outside e db
  · exact .inl ⟨game, by rw [hsaved]; rfl, hins, hadded⟩
  · refine .inr ⟨hdb, fun hdone => ?_⟩
    cases hresult : (attempt outside e db).1 with
    | error error =>
      rw [hresult] at hdone
      cases hdone
    | ok outcome =>
      rw [hresult] at hdone
      cases outcome with
      | saved game => exact absurd hresult (hne game)
      | alreadySaved => exact hasTag_of_alreadySaved hresult
      | retry error => cases hdone

theorem mem_eraseIdx_or_eq {α : Type} {l : List α} {index : ℕ} {a b : α}
    (hb : l[index]? = some b) (ha : a ∈ l) : a ∈ l.eraseIdx index ∨ a = b := by
  obtain ⟨k, hk⟩ := List.getElem?_of_mem ha
  obtain rfl | hne := eq_or_ne k index
  · exact .inr (Option.some.inj (hk.symm.trans hb))
  · exact .inl (List.mem_eraseIdx_iff_getElem?.mpr ⟨k, hne, hk⟩)

theorem invariant_execute (hinv : Invariant quote literals texts s) (index : ℕ)
    (envs : ℕ → LookupEnv) (fault : Option ℕ) (requeue : Bool) :
    Invariant quote literals texts (execute outside index envs fault requeue s) := by
  rw [execute, StreamRace.execute]
  cases hjob : s.store.queue[index]? with
  | none => exact hinv
  | some job =>
    have haccepted := hinv.queued job (List.mem_of_getElem? hjob)
    -- what is not in the queue any more is stored or was given up
    have haccounted : ∀ {games : Table Game Game.pk} {done : Bool},
        (∀ tag, HasTag s.store.db.games tag → HasTag games tag) →
        (done = true → HasTag games job.data.tag) → ∀ other ∈ s.accepted,
          other ∈ (if requeue = true then s.store.queue else s.store.queue.eraseIdx index) ∨
          other ∈ (if requeue = true ∨ done = true then s.failed else s.failed ++ [job]) ∨
          HasTag games other.data.tag := by
      intro games done hgrow hdone other hother
      have hfailed : other ∈ s.failed →
          other ∈ (if requeue = true ∨ done = true then s.failed else s.failed ++ [job]) := by
        intro hmem
        split
        · exact hmem
        · exact List.mem_append_left _ hmem
      obtain hqueue | hmem | htag := hinv.accounted other hother
      · cases requeue with
        | true => exact .inl hqueue
        | false =>
          obtain hqueue | rfl := mem_eraseIdx_or_eq hjob hqueue
          · exact .inl hqueue
          · cases done with
            | true => exact .inr (.inr (hdone rfl))
            | false => exact .inr (.inl (List.mem_append_right _ (List.mem_singleton_self _)))
      · exact .inr (.inl (hfailed hmem))
      · exact .inr (.inr (hgrow _ htag))
    have hqueued : ∀ other ∈ (if requeue = true then s.store.queue
        else s.store.queue.eraseIdx index), other ∈ s.accepted := by
      intro other hother
      split at hother
      · exact hinv.queued other hother
      · exact hinv.queued other (List.mem_of_mem_eraseIdx hother)
    obtain ⟨game, hdone, hins, hsaved⟩ | ⟨hdb, hdone⟩ := delivery_cases outside
      ⟨job.serverId, job.data, job.dataReceivedAt, envs, fault⟩ s.store.db
    · have hgames := hsaved.games
      refine ⟨invariant_of_saved hinv.tables ⟨job, haccepted, rfl⟩ hins hsaved, hqueued,
        haccounted ?_ fun _ => ?_, hinv.read, hinv.imports⟩
      · rintro tag ⟨g, hg, htag⟩
        exact ⟨g, hgames.symm ▸ List.mem_append_left _ hg, htag⟩
      · exact ⟨game, hgames.symm ▸ List.mem_append_right _ (List.mem_singleton_self _),
          hins.row.tag⟩
    · dsimp only
      rw [hdb]
      exact ⟨hinv.tables, hqueued, haccounted (fun _ h => h) hdone, hinv.read, hinv.imports⟩

theorem invariant_elsewhere (hinv : Invariant quote literals texts s) {db : Database}
    (h : reportsOf db = reportsOf s.store.db) :
    Invariant quote literals texts { s with store := { s.store with db } } where
  tables := invariant_of_reportsOf h hinv.tables
  queued := hinv.queued
  accounted job hjob := (hinv.accounted job hjob).imp_right fun h' =>
    h'.imp_right (hasTag_of_reportsOf h.symm)
  read := hinv.read
  imports := hinv.imports

theorem invariant_step (hinv : Invariant quote literals texts s) {e : Event}
    (he : (system outside quote literals).enabled s e)
    (htexts : ∀ contentType body, e.Submits contentType body → texts contentType body) :
    Invariant quote literals texts ((system outside quote literals).next s e) := by
  cases e with
  | post ip contentType body receivedAt =>
    exact invariant_post hinv ip receivedAt (htexts _ _ ⟨rfl, rfl⟩)
  | startImport importer lines =>
    refine invariant_imports hinv importer fun line hline => ?_
    exact htexts _ _ ⟨rfl, List.mem_map_of_mem hline⟩
  | importLine importer receivedAt => exact invariant_importLine hinv importer receivedAt
  | cutOff importer => exact invariant_imports hinv importer (List.forall_mem_nil _)
  | execute index envs fault requeue => exact invariant_execute hinv index envs fault requeue
  | elsewhere db => exact invariant_elsewhere hinv he

theorem reportsOf_post (quote : Text → Text) (literals : Json.Literals) (ip : IPv4)
    (contentType : ContentType) (body : Text) (receivedAt : Time) (s : State) :
    reportsOf (post quote literals ip contentType body receivedAt s).2.store.db =
      reportsOf s.store.db :=
  reportsOf_of_gameTables (post_cases quote literals ip contentType body receivedAt s.store).1

theorem reportsOf_importLine (importer : ℕ) (receivedAt : Time) (s : State) :
    reportsOf (importLine quote literals importer receivedAt s).store.db =
      reportsOf s.store.db := by
  rw [importLine]
  cases s.imports importer with
  | nil => rfl
  | cons line lines =>
    simp only
    split
    · rfl
    · have hpost := reportsOf_post quote literals localhost .other (Text.strip line) receivedAt
        { s with imports := Function.update s.imports importer lines }
      generalize post quote literals localhost .other (Text.strip line) receivedAt _ = r at hpost ⊢
      obtain ⟨_ | response, s'⟩ := r
      · exact hpost
      · exact hpost

theorem reportsOf_step (h : Settled quote literals (HasTag s.store.db.games) s) {e : Event}
    (he : (system outside quote literals).enabled s e) :
    reportsOf ((system outside quote literals).next s e).store.db = reportsOf s.store.db := by
  cases e with
  | post ip contentType body receivedAt => exact reportsOf_post _ _ ip contentType body receivedAt s
  | startImport importer lines => rfl
  | importLine importer receivedAt => exact reportsOf_importLine importer receivedAt s
  | cutOff importer => rfl
  | execute index envs fault requeue =>
    change reportsOf (execute outside index envs fault requeue s).store.db = _
    rw [execute, StreamRace.execute]
    cases hjob : s.store.queue[index]? with
    | none => rfl
    | some job =>
      obtain ⟨_, _, hins, _⟩ | ⟨hdb, _⟩ := delivery_cases outside
        ⟨job.serverId, job.data, job.dataReceivedAt, envs, fault⟩ s.store.db
      · obtain ⟨g, hg, htag⟩ := h.queued job (List.mem_of_getElem? hjob)
        exact absurd htag (hins.untagged g hg)
      · exact congrArg reportsOf hdb
  | elsewhere db => exact he

theorem settled_post {known : String → Prop} (h : Settled quote literals known s) (ip : IPv4)
    {contentType : ContentType} {body : Text} (receivedAt : Time)
    (hbody : ∀ data, Reads quote literals contentType body data → known data.tag) :
    Settled quote literals known (post quote literals ip contentType body receivedAt s).2 := by
  have hcases := post_cases quote literals ip contentType body receivedAt s.store
  rw [post]
  generalize
    DataStreamView.post quote literals ip contentType body receivedAt s.store = r at hcases ⊢
  obtain ⟨response, store⟩ := r
  refine ⟨fun job hjob => ?_, h.imports⟩
  obtain ⟨_, hqueue | ⟨posted, hqueue, hread⟩⟩ := hcases
  · exact h.queued job (hqueue ▸ hjob)
  · have hmem : job ∈ s.store.queue ++ [posted] := hqueue ▸ hjob
    obtain hold | hnew := List.mem_append.mp hmem
    · exact h.queued job hold
    · obtain rfl := List.mem_singleton.mp hnew
      exact hbody _ hread

theorem settled_imports {known : String → Prop} (h : Settled quote literals known s) (importer : ℕ)
    {lines : List Text} (hlines : ∀ line ∈ lines, ∀ data,
      Reads quote literals .other (Text.strip line) data → known data.tag) :
    Settled quote literals known
      { s with imports := Function.update s.imports importer lines } where
  queued := h.queued
  imports other line hline := by
    obtain rfl | hne := eq_or_ne other importer
    · simp only [Function.update_self] at hline
      exact hlines line hline
    · simp only [Function.update_of_ne hne] at hline
      exact h.imports other line hline

theorem settled_importLine {known : String → Prop} (h : Settled quote literals known s)
    (importer : ℕ) (receivedAt : Time) :
    Settled quote literals known (importLine quote literals importer receivedAt s) := by
  rw [importLine]
  cases hlines : s.imports importer with
  | nil => exact h
  | cons line lines =>
    have hall := h.imports importer
    rw [hlines] at hall
    have hrest := settled_imports h importer fun l hl => hall l (List.mem_cons_of_mem _ hl)
    simp only
    split
    · exact hrest
    · have hpost := settled_post hrest localhost receivedAt (hall line List.mem_cons_self)
      generalize post quote literals localhost .other (Text.strip line) receivedAt _ = r at hpost ⊢
      obtain ⟨_ | response, s'⟩ := r
      · exact settled_imports hpost importer (List.forall_mem_nil _)
      · exact hpost

theorem settled_step {known : String → Prop} (h : Settled quote literals known s) {e : Event}
    (hsubmits : ∀ contentType body data, e.Submits contentType body →
      Reads quote literals contentType body data → known data.tag) :
    Settled quote literals known ((system outside quote literals).next s e) := by
  cases e with
  | post ip contentType body receivedAt =>
    exact settled_post h ip receivedAt fun data => hsubmits _ _ data ⟨rfl, rfl⟩
  | startImport importer lines =>
    exact settled_imports h importer fun line hline data =>
      hsubmits _ _ data ⟨rfl, List.mem_map_of_mem hline⟩
  | importLine importer receivedAt => exact settled_importLine h importer receivedAt
  | cutOff importer => exact settled_imports h importer (List.forall_mem_nil _)
  | execute index envs fault requeue =>
    change Settled quote literals known (execute outside index envs fault requeue s)
    rw [execute, StreamRace.execute]
    cases hjob : s.store.queue[index]? with
    | none => exact h
    | some job =>
      refine ⟨fun other hother => h.queued other ?_, h.imports⟩
      cases requeue with
      | true => exact hother
      | false => exact List.mem_of_mem_eraseIdx hother
  | elsewhere db => exact ⟨h.queued, h.imports⟩

end Step

section Runs

variable {outside : External} {quote : Text → Text} {literals : Json.Literals} {s₀ s : State}
  {es : List Event}

theorem invariant_run {texts : ContentType → Text → Prop}
    (hrun : Run (system outside quote literals) s₀ es s)
    (htexts : ∀ e ∈ es, ∀ contentType body, e.Submits contentType body → texts contentType body)
    (hinv : Invariant quote literals texts s₀) : Invariant quote literals texts s :=
  hrun.invariant_of_mem (fun _ e he hs henabled => invariant_step hs henabled (htexts e he)) hinv

theorem invariant_of_isFresh {texts : ContentType → Text → Prop} (hfresh : IsFresh s₀) :
    Invariant quote literals texts s₀ where
  tables := by
    rw [hfresh.tables]
    constructor <;> simp [GameTables.empty]
  queued := by simp [hfresh.queue]
  accounted := by simp [hfresh.accepted]
  read := by simp [hfresh.accepted]
  imports := by simp [hfresh.imports]

theorem settled_run {known : String → Prop} (hrun : Run (system outside quote literals) s₀ es s)
    (hsubmits : ∀ e ∈ es, ∀ contentType body data, e.Submits contentType body →
      Reads quote literals contentType body data → known data.tag)
    (h : Settled quote literals known s₀) : Settled quote literals known s :=
  hrun.invariant_of_mem (fun _ e he hs _ => settled_step hs (hsubmits e he)) h

theorem settled_of_isFresh {known : String → Prop} (hfresh : IsFresh s₀) :
    Settled quote literals known s₀ where
  queued := by simp [hfresh.queue]
  imports := by simp [hfresh.imports]

theorem reportsOf_run (hrun : Run (system outside quote literals) s₀ es s)
    (hsubmits : ∀ e ∈ es, ∀ contentType body data, e.Submits contentType body →
      Reads quote literals contentType body data → HasTag s₀.store.db.games data.tag)
    (h : Settled quote literals (HasTag s₀.store.db.games) s₀) :
    reportsOf s.store.db = reportsOf s₀.store.db := by
  let Same := fun s => Settled quote literals (HasTag s₀.store.db.games) s ∧
    reportsOf s.store.db = reportsOf s₀.store.db
  have hsame : Same s := by
    refine hrun.invariant_of_mem ?_ (show Same s₀ from ⟨h, rfl⟩)
    rintro s e he ⟨hs, hreports⟩ henabled
    refine ⟨settled_step hs (hsubmits e he), Eq.trans ?_ hreports⟩
    -- the tags that were stored at the start still are
    have hgrow : ∀ tag, HasTag s₀.store.db.games tag → HasTag s.store.db.games tag :=
      fun _ => hasTag_of_reportsOf hreports.symm
    refine reportsOf_step ⟨fun job hjob => hgrow _ (hs.queued job hjob), ?_⟩ henabled
    exact fun importer line hline data hread => hgrow _ (hs.imports importer line hline data hread)
  exact hsame.2

/-- Every stored game is complete, the only one with its tag, and of a task that was accepted;
every accepted task was read from a body that was handed in, and is queued, given up or stored; and
once what is queued and still to be imported is stored, bodies that hold nothing but stored reports
change no report, however often they are handed in. -/
theorem delivers_of_run (hfresh : IsFresh s₀) (hrun : Run (system outside quote literals) s₀ es s) :
    (∀ g ∈ s.store.db.games.rows, ∀ g' ∈ s.store.db.games.rows, g.tag = g'.tag → g = g') ∧
    (∀ g ∈ s.store.db.games.rows, ∃ job ∈ s.accepted,
      g.tag = some job.data.tag ∧ Stored (gameTables s.store.db) g job.data) ∧
    (∀ job ∈ s.accepted,
      (∃ e ∈ es, ∃ contentType body, e.Submits contentType body ∧
        Reads quote literals contentType body job.data) ∧
      (job ∈ s.store.queue ∨ job ∈ s.failed ∨
        ∃ g ∈ s.store.db.games.rows, g.tag = some job.data.tag)) ∧
    ∀ es' s', Run (system outside quote literals) s es' s' →
      Settled quote literals (HasTag s.store.db.games) s →
      (∀ e ∈ es', ∀ contentType body data, e.Submits contentType body →
        Reads quote literals contentType body data → HasTag s.store.db.games data.tag) →
      reportsOf s'.store.db = reportsOf s.store.db := by
  have hinv : Invariant quote literals
      (fun contentType body => ∃ e ∈ es, e.Submits contentType body) s := by
    apply invariant_run hrun (fun e he contentType body h => ⟨e, he, h⟩)
    exact invariant_of_isFresh hfresh
  refine ⟨hinv.tables.tags, ?_, ?_, ?_⟩
  · intro g hg
    obtain ⟨_, ⟨job, hjob, rfl⟩, hstored⟩ := hinv.tables.stored g hg
    exact ⟨job, hjob, hstored.row.tag, hstored⟩
  · intro job hjob
    obtain ⟨contentType, body, ⟨e, he, hsubmits⟩, hread⟩ := hinv.read job hjob
    exact ⟨⟨e, he, contentType, body, hsubmits, hread⟩, hinv.accounted job hjob⟩
  · exact fun es' s' hrun' hsettled hsubmits => reportsOf_run hrun' hsubmits hsettled

end Runs

section Example

def line : Text := toJuliaV1 (treeEntries ReportFormats.onePlayer)

def freshState : State := ⟨⟨Database.empty, []⟩, fun _ => [], [], []⟩

/-- A file with the same report twice, and the report once more from another server. -/
def importedTwice : List Event :=
  [.startImport 0 [line, line], .importLine 0 1000, .execute 0 StreamRace.sampleEnvs (some 12) true,
    .importLine 0 1001, .execute 0 StreamRace.sampleEnvs none false, .post 7 .other line 1002]

def beforeMerge : State :=
  importedTwice.foldl (system plainOutside id plainLiterals).next freshState

def afterMerge : State :=
  (system plainOutside id plainLiterals).next beforeMerge
    (.elsewhere ((Tasks.mergeServers 1003 2 [1]).run beforeMerge.store.db).2)

def importedAgain : List Event :=
  [.startImport 1 [line], .importLine 1 1004, .execute 0 StreamRace.sampleEnvs none false,
    .execute 0 StreamRace.sampleEnvs none false, .execute 0 StreamRace.sampleEnvs none false]

theorem run_afterMerge : Run (system plainOutside id plainLiterals) freshState
    (importedTwice ++
      [.elsewhere ((Tasks.mergeServers 1003 2 [1]).run beforeMerge.store.db).2]) afterMerge := by
  have hrun : Run (system plainOutside id plainLiterals) freshState importedTwice beforeMerge :=
    .of_admits ⟨trivial, trivial, trivial, trivial, trivial, trivial, trivial⟩
  exact hrun.snoc (reportsOf_mergeServers 1003 2 [1] beforeMerge.store.db)

theorem hasTag_of_submits {e : Event}
    (he : e ∈ (importedTwice ++
      [.elsewhere ((Tasks.mergeServers 1003 2 [1]).run beforeMerge.store.db).2]) ++ importedAgain)
    {contentType : ContentType} {body : Text} {data : GameData}
    (hsubmits : e.Submits contentType body)
    (hread : Reads id plainLiterals contentType body data) :
    HasTag afterMerge.store.db.games data.tag := by
  have hline : ((decodeBody plainLiterals .other line).bind (Schema.gameSchema id)).map
      GameData.tag = some "5b4f3c2a" := by decide +kernel
  have hstrip : Text.strip line = line := by decide +kernel
  have hbody : contentType = .other ∧ body = line := by
    simp only [importedTwice, importedAgain, List.mem_append, List.mem_cons, List.not_mem_nil,
      or_false] at he
    rcases he with ((rfl | rfl | rfl | rfl | rfl | rfl) | rfl) | rfl | rfl | rfl | rfl | rfl <;>
      simp_all [Event.Submits]
  obtain ⟨rfl, rfl⟩ := hbody
  obtain ⟨value, hvalue, hdata⟩ := hread
  rw [Option.mem_def.mp hvalue, Option.bind_some, hdata] at hline
  have htags : some "5b4f3c2a" ∈ afterMerge.store.db.games.rows.map Game.tag := by decide +kernel
  obtain ⟨g, hg, htag⟩ := List.mem_map.mp htags
  exact ⟨g, hg, htag.trans hline.symm⟩

theorem delivers_importedTwice :
    afterMerge.accepted.length = 3 ∧ afterMerge.store.queue.length = 2 ∧
    afterMerge.store.db.games.rows.map (fun g => (g.tag, g.server)) = [(some "5b4f3c2a", 2)] ∧
    reportsOf
        (importedAgain.foldl (system plainOutside id plainLiterals).next afterMerge).store.db =
      reportsOf afterMerge.store.db := by
  have hfresh : IsFresh freshState := ⟨rfl, rfl, fun _ => rfl, rfl⟩
  have hagain : Run (system plainOutside id plainLiterals) afterMerge importedAgain
      (importedAgain.foldl (system plainOutside id plainLiterals).next afterMerge) :=
    .of_admits ⟨trivial, trivial, trivial, trivial, trivial, trivial⟩
  have hsettled : Settled id plainLiterals (HasTag afterMerge.store.db.games) afterMerge := by
    refine settled_run run_afterMerge (fun e he contentType body data => ?_)
      (settled_of_isFresh hfresh)
    exact hasTag_of_submits (List.mem_append_left _ he)
  refine ⟨by decide +kernel, by decide +kernel, by decide +kernel, ?_⟩
  apply (delivers_of_run hfresh run_afterMerge).2.2.2 _ _ hagain hsettled
  exact fun e he contentType body data => hasTag_of_submits (List.mem_append_right _ he)

end Example

end ReportQueue

end Swat4Stats
