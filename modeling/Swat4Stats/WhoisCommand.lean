import Swat4Stats.ApiRequests
import Swat4Stats.PlayerIdentity
import Swat4Stats.Refresh
import Swat4Stats.Whois

/-!
# The whois command

A game server asks who a player is known as. The answer comes from the cascade alone, while a game
save looks for the very alias first; the two agree on the players whose name says anything.
-/

namespace Swat4Stats

set_option autoImplicit false

open Tx Transition

structure WhoisArgs where
  command : Text
  commandId : Text
  args : Option Text

/-- What the template of the answer is given. -/
structure WhoisContext where
  name : Text
  ip : Text
  isp : Option String
  countryIso : Option String
  profile : Option ProfileId

namespace Schema

open Voluptuous

def whoisKeys : List String := ["0", "1", "2", "3", "4", "5"]

def whoisSchema : Validator WhoisArgs := fun value => do
  let d ← (dict value).filter fun d => noExtra d whoisKeys
  let _hash ← required d "0" text
  let command ← required d "1" text
  let commandId ← required d "2" text
  let args ← optional d "3" text
  let _adminName ← optional d "4" text
  let _adminIp ← optional d "5" text
  pure { command, commandId, args }

end Schema

namespace APIWhoisView

def isKnownServer (remote : IPv4) (db : Database) : Bool :=
  (ServerManager.listed db).any fun server => server.ip = remote

def matchIsp (env : LookupEnv) (ip : IPv4) : DbTx (Option IspId) :=
  rescue
    (do
      let (isp, _) ← ISPManager.matchOrCreate (env.pick 4) env.whois ip
      pure isp)
    fun e => if e = .raised .objectDoesNotExist then pure none else rethrow e

def handleWhois (outside : External) (env : LookupEnv) (arg : Option Text) : DbTx WhoisContext :=
  match arg with
  | none | some [] => raise (.apiError "whois command requires an argument")
  | some arg =>
    match Text.splitFirst '\t' arg with
    | (_, none) =>
      raise (.apiError (String.ofList arg ++ " is not a valid argument for the whois command"))
    | (name, some ip) =>
      match parseIPv4 ip with
      | none => raise (.apiError (String.ofList ip ++ " is not a valid IP address"))
      | some ipAddress => do
        let isp ← matchIsp env ipAddress
        let row ← read fun db => isp.bind db.isps.find?
        let profile ←
          ProfileManager.matchSmart outside env name ipAddress isp (row.bind Isp.country)
        pure { name, ip, isp := row.bind Isp.name, countryIso := row.bind Isp.country, profile }

/-- `render` is the template, which reads the database as the command left it. -/
def handle (outside : External) (render : Database → WhoisContext → Text) (env : LookupEnv)
    (whoisArgs : WhoisArgs) : DbTx (List Text) :=
  if whoisArgs.command = "whois".toList then do
    let contextData ← handleWhois outside env whoisArgs.args
    let message ← read fun db => render db contextData
    pure [whoisArgs.commandId, message]
  else
    raise (.apiError (String.ofList whoisArgs.command ++ " is not a valid command name"))

def answer (outside : External) (render : Database → WhoisContext → Text) (env : LookupEnv)
    (whoisArgs : WhoisArgs) : DbTx Text :=
  rescue
    (do
      let messages ← handle outside render env whoisArgs
      pure (APIResponse.fromSuccess (.list messages)))
    fun e =>
      match e with
      | .raised (.apiError message) => pure (APIResponse.fromError (.list [message.toList]))
      | e => rethrow e

/-- `require_known_server` -/
def withKnownServer (remote : IPv4) (view : DbTx Text) : DbTx Text := do
  let known ← read (isKnownServer remote)
  if known then
    view
  else
    pure (APIResponse.fromError (.list
      ["The server is not allowed to use this service".toList,
        "Please check whether it is listed at swat4stats.com/servers".toList]))

def get (outside : External) (literals : Json.Literals) (render : Database → WhoisContext → Text)
    (env : LookupEnv) (remote : IPv4) (contentType : ContentType) (queryString : Text) :
    DbTx Text :=
  withJuliaSchema Schema.whoisSchema literals contentType queryString
    (pure (APIResponse.fromError .none))
    fun whoisArgs => withKnownServer remote (answer outside render env whoisArgs)

/-- The query of a game server. -/
def queryString (hash commandId name ip : Text) : Text :=
  urlencode [("0".toList, hash), ("1".toList, "whois".toList), ("2".toList, commandId),
    ("3".toList, name ++ '\t' :: ip)]

variable {hash commandId name ip : Text}

/-- What the schema makes of the query. -/
theorem decodeBody_queryString (literals : Json.Literals) :
    ∃ value, decodeBody literals .other (queryString hash commandId name ip) = some value ∧
      Schema.whoisSchema value =
        some { command := "whois".toList, commandId, args := some (name ++ '\t' :: ip) } := by
  have hdecoded : requireJuliaSchema (queryString hash commandId name ip) =
      some [("0".toList, .str hash), ("1".toList, .str "whois".toList),
        ("2".toList, .str commandId), ("3".toList, .str (name ++ '\t' :: ip))] := by
    refine requireJuliaSchema_urlencode (by simp) ?_ ?_
    · simp only [List.mem_cons, List.not_mem_nil, or_false, forall_eq_or_imp, forall_eq]
      decide
    · simp only [List.map_cons, List.map_nil]
      decide
  refine ⟨_, by rw [decodeBody, hdecoded, Option.map_some], rfl⟩

section Keeps

variable {γ : Type*} {f : Database → γ} {outside : External}
  {literals : Json.Literals} {render : Database → WhoisContext → Text} {env : LookupEnv}
  {remote : IPv4}

theorem keeps_handleWhois (hf : ∀ db isps ipRanges, f { db with isps, ipRanges } = f db)
    (arg : Option Text) : Keeps f (handleWhois outside env arg) := by
  rw [handleWhois.eq_def]
  split
  · exact Keeps.raise
  · exact Keeps.raise
  · split
    · exact Keeps.raise
    · split
      · exact Keeps.raise
      · refine Keeps.bind ?_ fun isp => Keeps.read.bind fun row =>
          (ProfileManager.keeps_matchSteps outside env 0 _).bind fun profile => Keeps.pure
        refine Keeps.rescue
          ((ISPManager.keeps_matchOrCreate hf _ _ _).bind fun isp => Keeps.pure) fun e => ?_
        split
        · exact Keeps.pure
        · exact Keeps.rethrow

/-- Only the registry of addresses is written. -/
theorem keeps_get (hf : ∀ db isps ipRanges, f { db with isps, ipRanges } = f db)
    (contentType : ContentType) (queryString : Text) :
    Keeps f (get outside literals render env remote contentType queryString) := by
  rw [get, withJuliaSchema]
  split
  · exact Keeps.pure
  · rename_i whoisArgs _
    refine Keeps.read.bind fun known => ?_
    split
    · refine Keeps.rescue (Keeps.bind ?_ fun messages => Keeps.pure) fun e => ?_
      · rw [handle]
        split
        · exact (keeps_handleWhois hf _).bind fun contextData => Keeps.read.bind fun _ => Keeps.pure
        · exact Keeps.raise
      · split
        · exact Keeps.pure
        · exact Keeps.rethrow
    · exact Keeps.pure

end Keeps

section Answer

variable {outside : External} {literals : Json.Literals}
  {render : Database → WhoisContext → Text} {env : LookupEnv} {remote : IPv4} {db db₁ : Database}
  {ipAddress : IPv4} {isp : Option IspId} {created : Bool}

/-- What the template is given once the provider is known. -/
def contextOf (outside : External) (env : LookupEnv) (name ip : Text) (ipAddress : IPv4)
    (isp : Option IspId) (db : Database) : WhoisContext :=
  let row := isp.bind db.isps.find?
  { name, ip, isp := row.bind Isp.name, countryIso := row.bind Isp.country
    profile := ProfileManager.firstMatch outside env db 0
      (ProfileManager._prepareMatchSmartSteps name ipAddress isp (row.bind Isp.country)) }

theorem run_handleWhois (htab : '\t' ∉ name) (hip : parseIPv4 ip = some ipAddress)
    (hisp : (ISPManager.matchOrCreate (env.pick 4) env.whois ipAddress).run db =
      (.ok (isp, created), db₁)) :
    (handleWhois outside env (some (name ++ '\t' :: ip))).run db =
      (.ok (contextOf outside env name ip ipAddress isp db₁), db₁) := by
  have hmatchIsp : (matchIsp env ipAddress).run db = (.ok isp, db₁) := by
    simp [matchIsp, run_rescue, run_bind, hisp]
  have hsplit : Text.splitFirst '\t' (name ++ '\t' :: ip) = (name, some ip) :=
    Text.splitFirst_append htab ip
  rw [handleWhois.eq_3 _ _ _ (by simp)]
  simp only [hsplit, hip, run_bind, hmatchIsp, run_read, run_pure, ProfileManager.matchSmart,
    ProfileManager.run_matchSteps, contextOf]

theorem run_get (hknown : isKnownServer remote db = true) (htab : '\t' ∉ name)
    (hip : parseIPv4 ip = some ipAddress)
    (hisp : (ISPManager.matchOrCreate (env.pick 4) env.whois ipAddress).run db =
      (.ok (isp, created), db₁)) :
    (get outside literals render env remote .other (queryString hash commandId name ip)).run db =
      (.ok (APIResponse.fromSuccess (.list
        [commandId, render db₁ (contextOf outside env name ip ipAddress isp db₁)])), db₁) := by
  obtain ⟨value, hdecoded, hschema⟩ := decodeBody_queryString literals
  rw [get, withJuliaSchema_of_decoded hdecoded hschema]
  simp only [withKnownServer, run_bind, run_read, hknown, if_true, answer, run_rescue, handle,
    run_handleWhois htab hip hisp, run_pure]

end Answer

end APIWhoisView

namespace WhoisCommand

open PlayerIdentity

/-- `other` is whatever else the tracker does that leaves the aliases and the players alone. -/
inductive Event where
  | save (event : PlayerIdentity.Event)
  | ask (env : LookupEnv) (remote : IPv4) (contentType : ContentType) (queryString : Text)
  | other (result : Database)

def envOf : PlayerIdentity.Event → Option LookupEnv
  | .game _ => none
  | .player env _ _ _ => some env

/-- The columns of a provider take the whois answer; with any other the lookup is refused. -/
def AnswerFits (env : LookupEnv) : Prop :=
  ∀ network ∈ env.whois, ISPManager.FitsIspColumns network.description network.country

def system (outside : External) (ispOf : IPv4 → Option IspId) (literals : Json.Literals)
    (render : Database → WhoisContext → Text) : System Database Event where
  enabled db
    | .save event => (PlayerIdentity.system outside ispOf).enabled db event ∧
        ∀ env ∈ envOf event, AnswerFits env
    | .ask env _ _ _ => AnswerFits env
    | .other result => result.aliases = db.aliases ∧ result.players = db.players
  next db
    | .save event => (PlayerIdentity.system outside ispOf).next db event
    | .ask env remote contentType queryString =>
      ((APIWhoisView.get outside literals render env remote contentType queryString).run db).2
    | .other result => result

section Step

variable {outside : External} {ispOf : IPv4 → Option IspId} {db : Database}
  {literals : Json.Literals} {render : Database → WhoisContext → Text}

theorem Invariant.congr {db' : Database} (hinv : Invariant outside ispOf db)
    (haliases : db'.aliases = db.aliases) (hplayers : db'.players = db.players) :
    Invariant outside ispOf db' := by
  obtain ⟨hunique, hshared, hstored⟩ := hinv
  exact ⟨by rwa [haliases], by rwa [haliases], by rwa [haliases, hplayers]⟩

variable (outside literals render db) in
theorem aliases_ask (env : LookupEnv) (remote : IPv4) (contentType : ContentType)
    (queryString : Text) :
    (((APIWhoisView.get outside literals render env remote contentType queryString).run
        db).2.aliases,
      ((APIWhoisView.get outside literals render env remote contentType queryString).run
        db).2.players) = (db.aliases, db.players) :=
  (APIWhoisView.keeps_get (f := fun db => (db.aliases, db.players)) (fun _ _ _ => rfl) _ _).run db

variable (outside) in
/-- The alias that a save comes to has the name and the provider of the player. -/
theorem run_matchOrCreate_name {env : LookupEnv} {name ip : Text} {ipAddress : IPv4}
    {created : Bool} (hname : name ≠ []) (hip : parseIPv4 ip = some ipAddress)
    (hisp : ((ISPManager.matchOrCreate (env.pick 4) env.whois ipAddress).run db).1 =
      .ok (ispOf ipAddress, created)) :
    ∃ aliasId created' db', (AliasManager.matchOrCreate outside env name ip).run db =
        (.ok (aliasId, created'), db') ∧
      (∀ a ∈ db.aliases.rows, a ∈ db'.aliases.rows) ∧
      ∃ b ∈ db'.aliases.rows, b.pk = aliasId ∧ b.name = name ∧ b.isp = ispOf ipAddress := by
  obtain ⟨db₁, hrun⟩ : ∃ db₁, (ISPManager.matchOrCreate (env.pick 4) env.whois ipAddress).run db =
      (.ok (ispOf ipAddress, created), db₁) := ⟨_, Prod.ext hisp rfl⟩
  have haliases : db₁.aliases = db.aliases := by
    have hkeeps := (ISPManager.keeps_matchOrCreate (f := Database.aliases)
      (fun _ _ _ => rfl) (env.pick 4) env.whois ipAddress).run db
    rwa [hrun] at hkeeps
  rw [AliasManager.matchOrCreate, if_neg hname, hip, ← haliases]
  simp only [run_bind, hrun, run_read]
  cases hrow : Table.anyRow (env.pick 5) (db₁.aliases.rows.filter fun row =>
      row.name = name ∧ row.isp = ispOf ipAddress) with
  | some row =>
    have hmem := List.mem_filter.mp (Table.anyRow_mem hrow)
    simp only [decide_eq_true_eq] at hmem
    exact ⟨row.pk, false, db₁, rfl, fun a ha => ha, row, hmem.1, rfl, hmem.2⟩
  | none =>
    obtain ⟨profile, db₂, hcreate, -, haliases₂, -⟩ :=
      AliasManager.run_createAlias outside env name ipAddress (ispOf ipAddress)
        ((ispOf ipAddress).bind fun isp => (db₁.isps.find? isp).bind Isp.country) db₁
    simp only [run_bind, hcreate, run_pure]
    refine ⟨_, true, db₂, rfl, fun a ha => ?_,
      ⟨db₁.aliases.nextPk, name, profile, ispOf ipAddress, env.clock 4, env.clock 4⟩, ?_, rfl, rfl,
      rfl⟩
    · rw [haliases₂]
      exact Table.mem_create.mpr (.inl ha)
    · rw [haliases₂]
      exact Table.mem_create.mpr (.inr rfl)

theorem invariant_next (hupper : ∀ s t, outside.upper s = outside.upper t →
      isNamePopular s = isNamePopular t) {event : Event} (hinv : Invariant outside ispOf db)
    (henabled : (system outside ispOf literals render).enabled db event) :
    Invariant outside ispOf ((system outside ispOf literals render).next db event) := by
  match event with
  | .save (.game game) => exact Invariant.congr hinv rfl rfl
  | .save (.player env name ip player) =>
    obtain ⟨⟨hname, ipAddress, created, hip, hisp⟩, -⟩ := henabled
    exact invariant_savePlayer hinv hupper hname hip hisp
  | .ask env remote contentType queryString =>
    obtain ⟨haliases, hplayers⟩ :=
      Prod.mk.inj (aliases_ask outside db literals render env remote contentType queryString)
    exact Invariant.congr hinv haliases hplayers
  | .other result => exact Invariant.congr hinv henabled.1 henabled.2

variable (outside) in
theorem run_savePlayer {env : LookupEnv} {name ip : Text} (player : Player) {ipAddress : IPv4}
    {created : Bool} (hname : name ≠ []) (hip : parseIPv4 ip = some ipAddress)
    (hisp : ((ISPManager.matchOrCreate (env.pick 4) env.whois ipAddress).run db).1 =
      .ok (ispOf ipAddress, created)) :
    ∃ db', ((savePlayer outside env name ip player).run db).2 = db' ∧
      (∀ a ∈ db.aliases.rows, a ∈ db'.aliases.rows) ∧
      ∃ b ∈ db'.aliases.rows, b.name = name ∧ b.isp = ispOf ipAddress ∧
        ∃ p ∈ db'.players.rows, p.aliasId = b.pk ∧ p.pk = db.players.nextPk := by
  obtain ⟨aliasId, created', db', hrun, hkept, b, hb, hpk, hbname, hbisp⟩ :=
    run_matchOrCreate_name outside hname hip hisp
  have hplayers : db'.players = db.players := by
    have hkeeps := (AliasManager.keeps_matchOrCreate (f := Database.players)
      (fun _ _ _ _ _ => rfl) outside env name ip).run db
    rwa [hrun] at hkeeps
  refine ⟨_, rfl, ?_⟩
  rw [savePlayer, run_atomic]
  simp only [run_bind, hrun, hip, createPlayer, run_write]
  refine ⟨hkept, b, hb, hbname, hbisp, _, Table.mem_create.mpr (.inr rfl), hpk.symm, ?_⟩
  rw [hplayers]

theorem mem_aliases_next {event : Event} {a : Alias} (ha : a ∈ db.aliases.rows)
    (henabled : (system outside ispOf literals render).enabled db event) :
    a ∈ ((system outside ispOf literals render).next db event).aliases.rows := by
  match event with
  | .save (.game game) => exact ha
  | .save (.player env name ip player) =>
    obtain ⟨⟨hname, ipAddress, created, hip, hisp⟩, -⟩ := henabled
    obtain ⟨_, rfl, hkept, -⟩ := run_savePlayer outside player hname hip hisp
    exact hkept a ha
  | .ask env remote contentType queryString =>
    obtain ⟨haliases, -⟩ :=
      Prod.mk.inj (aliases_ask outside db literals render env remote contentType queryString)
    exact haliases ▸ ha
  | .other result => exact henabled.1 ▸ ha

theorem invariant_of_run (hupper : ∀ s t, outside.upper s = outside.upper t →
      isNamePopular s = isNamePopular t) {es : List Event} {later : Database}
    (hrun : Run (system outside ispOf literals render) db es later)
    (hinv : Invariant outside ispOf db) :
    Invariant outside ispOf later :=
  hrun.invariant (fun _ _ hinv henabled => invariant_next hupper hinv henabled) hinv

/-- No alias is changed or deleted. -/
theorem mem_aliases_of_run {es : List Event} {later : Database} {a : Alias}
    (hrun : Run (system outside ispOf literals render) db es later) (ha : a ∈ db.aliases.rows) :
    a ∈ later.aliases.rows := by
  induction hrun with
  | nil => exact ha
  | cons henabled _ ih => exact ih (mem_aliases_next ha henabled)

end Step

/-- A game server that asks for a player of a known provider is told the profile of the alias that
has the name in whatever case, and it stays so: a player who is saved under the name at any later
time is filed under this profile. -/
theorem whois_of_run {outside : External} {ispOf : IPv4 → Option IspId} {literals : Json.Literals}
    {render : Database → WhoisContext → Text} {es : List Event} {db : Database}
    (hupper : ∀ s t, outside.upper s = outside.upper t → isNamePopular s = isNamePopular t)
    (hrun : Run (system outside ispOf literals render) Database.empty es db)
    {env : LookupEnv} {remote : IPv4} {hash commandId name ip : Text} {ipAddress : IPv4}
    {isp : IspId} {created : Bool} (hknown : APIWhoisView.isKnownServer remote db = true)
    (hfits : AnswerFits env) (htab : '\t' ∉ name) (hip : parseIPv4 ip = some ipAddress)
    (hisp : ispOf ipAddress = some isp)
    (hlookup : ((ISPManager.matchOrCreate (env.pick 4) env.whois ipAddress).run db).1 =
      .ok (some isp, created))
    {a : Alias} (ha : a ∈ db.aliases.rows) (haisp : a.isp = some isp)
    (hname : outside.upper a.name = outside.upper name) (hpopular : isNamePopular name = false) :
    ∃ context db', (APIWhoisView.get outside literals render env remote .other
        (APIWhoisView.queryString hash commandId name ip)).run db =
        (.ok (APIResponse.fromSuccess (.list [commandId, render db' context])), db') ∧
      Run (system outside ispOf literals render) Database.empty
        (es ++ [.ask env remote .other (APIWhoisView.queryString hash commandId name ip)]) db' ∧
      context.name = name ∧ context.ip = ip ∧ context.profile = some a.profile ∧
      ∀ es' later, Run (system outside ispOf literals render) db' es' later →
        ∀ env name' ip player,
          (system outside ispOf literals render).enabled later
            (.save (.player env name' ip player)) →
          outside.upper name' = outside.upper name → (∀ ipAddress ∈ parseIPv4 ip,
            ispOf ipAddress = some isp) →
          ∃ p ∈ ((savePlayer outside env name' ip player).run later).2.players.rows,
            p.pk = later.players.nextPk ∧
            ∃ b ∈ ((savePlayer outside env name' ip player).run later).2.aliases.rows,
              b.pk = p.aliasId ∧ b.name = name' ∧ b.profile = a.profile := by
  have hinv : Invariant outside ispOf db :=
    invariant_of_run hupper hrun
      ⟨by simp [Database.empty], by simp [Database.empty], by simp [Database.empty]⟩
  obtain ⟨db₁, hmatch⟩ : ∃ db₁, (ISPManager.matchOrCreate (env.pick 4) env.whois ipAddress).run db =
      (.ok (some isp, created), db₁) := ⟨_, Prod.ext hlookup rfl⟩
  have hanswer : (APIWhoisView.get outside literals render env remote .other
      (APIWhoisView.queryString hash commandId name ip)).run db = _ :=
    APIWhoisView.run_get hknown htab hip hmatch
  have hframe := aliases_ask outside db literals render env remote .other
    (APIWhoisView.queryString hash commandId name ip)
  rw [hanswer] at hframe
  obtain ⟨haliases, hplayers⟩ := Prod.mk.inj hframe
  have hinv₁ : Invariant outside ispOf db₁ := Invariant.congr hinv haliases hplayers
  have ha₁ : a ∈ db₁.aliases.rows := haliases ▸ ha
  have henabled : (system outside ispOf literals render).enabled db
      (.ask env remote .other (APIWhoisView.queryString hash commandId name ip)) := hfits
  have hasked := hrun.snoc henabled
  simp only [system, hanswer] at hasked
  refine ⟨_, db₁, hanswer, hasked, rfl, rfl, ?_, ?_⟩
  · exact firstMatch_eq_some hinv₁ hupper hisp hpopular ha₁ haisp hname env _
  · intro es' later hlater env name' ip player henabled hname' hsame
    have hlaterInv := invariant_of_run hupper hlater hinv₁
    have hlaterMem := mem_aliases_of_run hlater ha₁
    obtain ⟨⟨hne, ipAddress', created', hip', hisp'⟩, -⟩ := henabled
    have hispOf' : ispOf ipAddress' = some isp := hsame _ hip'
    obtain ⟨_, rfl, hmem, b, hb, hbname, hbisp, p, hp, hpb, hpk⟩ :=
      run_savePlayer outside player hne hip' hisp'
    refine ⟨p, hp, hpk, b, hb, hpb.symm, hbname, ?_⟩
    have hsaved : Invariant outside ispOf ((savePlayer outside env name' ip player).run later).2 :=
      invariant_savePlayer hlaterInv hupper hne hip' hisp'
    refine hsaved.shared b hb a (hmem a hlaterMem) ?_ ?_ ?_ ?_ ?_
    · rw [hbisp, hispOf']
      exact Option.some_ne_none isp
    · rw [hbisp, hispOf', haisp]
    · rw [hbname, hname', hname]
    · rw [hbname, hupper _ _ hname', hpopular]
    · rw [hupper _ _ hname, hpopular]

section Example

def listedServer : Server := { pk := 1, ip := 7, port := 10480, listed := true }

def sampleSystem : System Database Event :=
  system asciiOutside (fun _ => some 1) plainLiterals fun _ _ => []

def savedPlayer : Database :=
  sampleSystem.next Database.empty
    (.save (.player sampleEnv "Serge".toList "10.0.0.1".toList samplePlayer))

/-- A player is saved, and a server gets listed. -/
def playerAndServer : List Event :=
  [.save (.player sampleEnv "Serge".toList "10.0.0.1".toList samplePlayer),
    .other { savedPlayer with servers := ⟨[listedServer], List.nodup_singleton _⟩ }]

theorem answerFits_sampleEnv : AnswerFits sampleEnv := by
  have hfits : ISPManager.FitsIspColumns (some "Verizon") (some "us") := by
    constructor <;> rintro text ⟨⟩ <;> decide
  rintro network ⟨⟩
  exact hfits

theorem whois_of_playerAndServer :
    ∃ (context : WhoisContext) (db' : Database),
      (APIWhoisView.get asciiOutside plainLiterals (fun _ _ => []) sampleEnv 7 .other
        (APIWhoisView.queryString "hash".toList "id".toList "SERGE".toList "10.0.0.2".toList)).run
          (playerAndServer.foldl sampleSystem.next Database.empty) =
        (.ok (APIResponse.fromSuccess (.list ["id".toList, []])), db') ∧
      context.profile = some 1 := by
  have hsaved : (PlayerIdentity.system asciiOutside fun _ => some 1).enabled Database.empty
      (.player sampleEnv "Serge".toList "10.0.0.1".toList samplePlayer) :=
    ⟨by decide, 0x0A000001, true, by decide +kernel, by decide +kernel⟩
  have hrun : Run sampleSystem Database.empty playerAndServer
      (playerAndServer.foldl sampleSystem.next Database.empty) :=
    .cons ⟨hsaved, fun _ henv => Option.some.inj henv ▸ answerFits_sampleEnv⟩
      (.cons ⟨rfl, rfl⟩ (.nil _))
  have hlookup : ((ISPManager.matchOrCreate (sampleEnv.pick 4) sampleEnv.whois 0x0A000002).run
      (playerAndServer.foldl sampleSystem.next Database.empty)).1 = .ok (some 1, false) := by
    decide +kernel
  have halias : (⟨1, "Serge".toList, 1, some 1, 1000, 1000⟩ : Alias) ∈
      (playerAndServer.foldl sampleSystem.next Database.empty).aliases.rows := by decide +kernel
  obtain ⟨context, db', hanswer, -, -, -, hprofile, -⟩ := whois_of_run isNamePopular_of_asciiUpper
    hrun (show APIWhoisView.isKnownServer 7 _ = true by decide +kernel)
    answerFits_sampleEnv
    (show '\t' ∉ "SERGE".toList by decide)
    (show parseIPv4 "10.0.0.2".toList = some 0x0A000002 by decide +kernel) rfl hlookup halias rfl
    (by decide +kernel) (by decide +kernel)
  exact ⟨context, db', hanswer, hprofile⟩

end Example

end WhoisCommand

end Swat4Stats
