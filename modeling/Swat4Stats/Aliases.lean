import Swat4Stats.Calendar
import Swat4Stats.Geoip
import Swat4Stats.PlayerNames

/-!
# Aliases and profiles

`AliasManager.match_or_create` and the cascade of lookups by which `ProfileManager` finds the
profile of a new alias. The clock readings and the rows that unordered queries pick are those of
the lookup that is under way.
-/

namespace Swat4Stats

set_option autoImplicit false

open Tx

/-- What one call of `match_or_create` finds outside the database. -/
structure LookupEnv where
  whois : Option WhoisQueryResult := none
  clock : ℕ → Time
  pick : ℕ → ℕ := fun _ => 0

/-- The keyword arguments of `ProfileManager.match`. -/
structure MatchStep where
  recent : Bool := false
  name : Option Text := none
  ip : Option IPv4 := none
  isp : Option IspId := none
  country : Option String := none

namespace ProfileManager

/-- `TRACKER_RECENT_TIME`, in microseconds. -/
def recentTime : Time := 3600 * 24 * 180 * 1000000

/-- A lookup through the players of an alias: all conditions are about the same player. -/
def playerMatches (step : MatchStep) (now : Time) (db : Database) (aliasId : AliasId)
    (player : Player) : Bool :=
  player.aliasId = aliasId ∧ step.ip.all (fun ip => player.ip = ip) ∧
    (step.recent → db.games.rows.any fun game =>
      game.pk = player.game ∧ now ≤ game.dateFinished + recentTime)

def aliasMatches (outside : External) (step : MatchStep) (now : Time) (db : Database)
    (row : Alias) : Bool :=
  step.name.all (fun name => outside.upper row.name = outside.upper name) ∧
    step.isp.all (fun isp => row.isp = some isp) ∧
    step.country.all (fun country => db.isps.rows.any fun isp =>
      row.isp = some isp.pk ∧ isp.country = some country) ∧
    (step.ip ≠ none ∨ step.recent → db.players.rows.any (playerMatches step now db row.pk))

def matchingAliases (outside : External) (step : MatchStep) (now : Time) (db : Database) :
    List Alias :=
  db.aliases.rows.filter (aliasMatches outside step now db)

/-- `none` stands for `NoProfileMatchError`. -/
def «match» (outside : External) (step : MatchStep) (now : Time) (pick : ℕ) :
    DbTx (Option ProfileId) :=
  read fun db => (Table.anyRow pick (matchingAliases outside step now db)).map Alias.profile

/-- The provider is given as its key and its country. -/
def _prepareMatchSmartSteps (name : Text) (ip : IPv4) (isp : Option IspId)
    (country : Option String) : List MatchStep :=
  let canUseName := !isNamePopular name
  -- step 1: name+ip lookup
  (if canUseName then [{ name := some name, ip := some ip }] else []) ++
  -- step 2: name+isp lookup
  (match isp with
    | some isp => if canUseName then [{ name := some name, isp := some isp }] else []
    | none => []) ++
  -- step 3: name+country lookup against the recent players
  (match country with
    | some country =>
      if canUseName ∧ country ≠ "" then
        [{ recent := true, name := some name, country := some country }]
      else []
    | none => []) ++
  -- step 4: ip lookup against the recent players
  [{ recent := true, ip := some ip }]

/-- The steps in order, each with the clock reading and the pick of its position. -/
def matchSteps (outside : External) (env : LookupEnv) : ℕ → List MatchStep → DbTx (Option ProfileId)
  | _, [] => pure none
  | position, step :: steps => do
    let matched ← ProfileManager.match outside step (env.clock position) (env.pick position)
    match matched with
    | some profile => pure (some profile)
    | none => matchSteps outside env (position + 1) steps

def matchSmart (outside : External) (env : LookupEnv) (name : Text) (ip : IPv4) (isp : Option IspId)
    (country : Option String) : DbTx (Option ProfileId) :=
  matchSteps outside env 0 (_prepareMatchSmartSteps name ip isp country)

def create (name : Text) : DbTx ProfileId :=
  statement fun db => .ok (db.profiles.nextPk,
    { db with profiles := db.profiles.create (fun pk => { pk, name := some name }) fun _ => rfl })

def matchSmartOrCreate (outside : External) (env : LookupEnv) (name : Text) (ip : IPv4)
    (isp : Option IspId) (country : Option String) : DbTx (ProfileId × Bool) := do
  let matched ← matchSmart outside env name ip isp country
  match matched with
  | some profile => pure (profile, false)
  | none => do
    let profile ← create name
    pure (profile, true)

/-- `alias_updated_at` of the profile, unless it is that late already. -/
def bumpAliasUpdatedAt (profile : ProfileId) (createdAt : Time) : DbTx Unit :=
  write fun db => { db with
    profiles := db.profiles.update
      (fun p => p.pk = profile ∧ p.aliasUpdatedAt.all fun updatedAt => updatedAt < createdAt)
      (fun p => { p with aliasUpdatedAt := some createdAt }) fun _ => rfl }

end ProfileManager

namespace AliasManager

def create (name : Text) (profile : ProfileId) (isp : Option IspId) (now : Time) :
    DbTx AliasId :=
  statement fun db => .ok (db.aliases.nextPk,
    { db with
      aliases := db.aliases.create
        (fun pk => { pk, name, profile, isp, createdAt := now, updatedAt := now }) fun _ => rfl })

def createAlias (outside : External) (env : LookupEnv) (name : Text) (ip : IPv4)
    (isp : Option IspId) (country : Option String) : DbTx AliasId := atomic do
  let (profile, _) ← ProfileManager.matchSmartOrCreate outside env name ip isp country
  -- the creation reads the clock after the four lookups
  let newAlias ← create name profile isp (env.clock 4)
  ProfileManager.bumpAliasUpdatedAt profile (env.clock 4)
  pure newAlias

/-- The picks after those of the four lookups are the address range, and the alias of the name
and the provider. -/
def matchOrCreate (outside : External) (env : LookupEnv) (name ip : Text) :
    DbTx (AliasId × Bool) := do
  if name = [] then
    raise (.valueError "Empty name")
  else
    match parseIPv4 ip with
    | none => raise (.addressValueError ip)
    | some ipAddress => do
      let (isp, _) ← ISPManager.matchOrCreate (env.pick 4) env.whois ipAddress
      let country ← read fun db => isp.bind fun isp => (db.isps.find? isp).bind Isp.country
      let matched ← read fun db =>
        Table.anyRow (env.pick 5) (db.aliases.rows.filter fun row =>
          row.name = name ∧ row.isp = isp)
      match matched with
      | some row => pure (row.pk, false)
      | none => do
        let newAlias ← createAlias outside env name ipAddress isp country
        pure (newAlias, true)

end AliasManager

namespace ProfileManager

variable {γ : Type*} {f : Database → γ}

theorem keeps_matchSteps (outside : External) (env : LookupEnv) (position : ℕ)
    (steps : List MatchStep) : Keeps f (matchSteps outside env position steps) := by
  induction steps generalizing position with
  | nil => exact Keeps.pure
  | cons step steps ih =>
    refine Keeps.read.bind fun matched => ?_
    cases matched with
    | none => exact ih _
    | some profile => exact Keeps.pure

theorem keeps_matchSmartOrCreate (hf : ∀ db profiles, f { db with profiles } = f db)
    (outside : External) (env : LookupEnv) (name : Text) (ip : IPv4) (isp : Option IspId)
    (country : Option String) :
    Keeps f (matchSmartOrCreate outside env name ip isp country) := by
  refine (keeps_matchSteps outside env 0 _).bind fun matched => ?_
  cases matched with
  | some profile => exact Keeps.pure
  | none =>
    refine Keeps.bind (Keeps.statement ?_) fun _ => Keeps.pure
    rintro db profile db' ⟨⟩
    exact hf db _

end ProfileManager

namespace AliasManager

theorem keeps_matchOrCreate {γ : Type*} {f : Database → γ}
    (hf : ∀ db isps ipRanges profiles aliases,
      f { db with isps, ipRanges, profiles, aliases } = f db)
    (outside : External) (env : LookupEnv) (name ip : Text) :
    Keeps f (matchOrCreate outside env name ip) := by
  have hcreate : ∀ ipAddress isp country,
      Keeps f (createAlias outside env name ipAddress isp country) := by
    intro ipAddress isp country
    refine Keeps.atomic (Keeps.bind (ProfileManager.keeps_matchSmartOrCreate
      (fun db profiles => hf db db.isps db.ipRanges profiles db.aliases) _ _ _ _ _ _)
        fun profile => ?_)
    refine Keeps.bind (Keeps.statement ?_) fun newAlias => ?_
    · rintro db newAlias db' ⟨⟩
      exact hf db db.isps db.ipRanges db.profiles _
    · refine Keeps.bind (Keeps.write ?_) fun _ => Keeps.pure
      exact fun db => hf db db.isps db.ipRanges _ db.aliases
  unfold matchOrCreate
  split
  · exact Keeps.raise
  · split
    · exact Keeps.raise
    · refine Keeps.bind (ISPManager.keeps_matchOrCreate
        (fun db isps ipRanges => hf db isps ipRanges db.profiles db.aliases) _ _ _) fun isp => ?_
      refine Keeps.read.bind fun country => Keeps.read.bind fun matched => ?_
      cases matched with
      | some row => exact Keeps.pure
      | none => exact (hcreate _ _ _).bind fun _ => Keeps.pure

end AliasManager

end Swat4Stats
