import Swat4Stats.Aliases
import Swat4Stats.Library.Transition

/-!
# Player identity

An alias is unique for its name and provider, and the aliases of one provider whose names differ
in case only share a profile. The second needs a relation to the history: a player is stored with
an address of the provider of the alias, so that the lookup by name and address, which comes
first, can only find aliases that the lookup by name and provider would find too.
-/

namespace Swat4Stats

set_option autoImplicit false

open Tx Transition

namespace ProfileManager

def firstMatch (outside : External) (env : LookupEnv) (db : Database) :
    ℕ → List MatchStep → Option ProfileId
  | _, [] => none
  | position, step :: steps =>
    match Table.anyRow (env.pick position)
        (matchingAliases outside step (env.clock position) db) with
    | some row => some row.profile
    | none => firstMatch outside env db (position + 1) steps

theorem run_matchSteps (outside : External) (env : LookupEnv) (db : Database) (position : ℕ)
    (steps : List MatchStep) :
    (matchSteps outside env position steps).run db =
      (.ok (firstMatch outside env db position steps), db) := by
  induction steps generalizing position with
  | nil => rfl
  | cons step steps ih =>
    rw [matchSteps, run_bind, ProfileManager.match, run_read, firstMatch]
    cases Table.anyRow (env.pick position)
        (matchingAliases outside step (env.clock position) db) with
    | none => exact ih _
    | some row => rfl

theorem firstMatch_of_forall {outside : External} {env : LookupEnv} {db : Database}
    {position : ℕ} {step : MatchStep} {steps : List MatchStep} {profile : ProfileId}
    (hstep : ∀ row ∈ matchingAliases outside step (env.clock position) db, row.profile = profile)
    (hrest : matchingAliases outside step (env.clock position) db = [] →
      firstMatch outside env db (position + 1) steps = some profile) :
    firstMatch outside env db position (step :: steps) = some profile := by
  rw [firstMatch]
  cases hrow : Table.anyRow (env.pick position)
      (matchingAliases outside step (env.clock position) db) with
  | none => exact hrest (Table.anyRow_eq_none_iff.mp hrow)
  | some row => exact congrArg some (hstep row (Table.anyRow_mem hrow))

end ProfileManager

namespace AliasManager

/-- A new alias has the profile that the cascade found, or a new one if it found none. -/
theorem run_createAlias (outside : External) (env : LookupEnv) (name : Text) (ip : IPv4)
    (isp : Option IspId) (country : Option String) (db : Database) :
    ∃ profile db', (createAlias outside env name ip isp country).run db =
        (.ok db.aliases.nextPk, db') ∧
      (∀ found, ProfileManager.firstMatch outside env db 0
        (ProfileManager._prepareMatchSmartSteps name ip isp country) = some found →
          profile = found) ∧
      db'.aliases = db.aliases.create (fun pk =>
        { pk, name, profile, isp, createdAt := env.clock 4, updatedAt := env.clock 4 })
        (fun _ => rfl) ∧
      db'.players = db.players := by
  rw [createAlias, run_atomic, run_bind, ProfileManager.matchSmartOrCreate, run_bind,
    ProfileManager.matchSmart, ProfileManager.run_matchSteps]
  cases hmatch : ProfileManager.firstMatch outside env db 0
      (ProfileManager._prepareMatchSmartSteps name ip isp country) with
  | some found =>
    refine ⟨found, _, rfl, ?_, rfl, rfl⟩
    rintro found' ⟨⟩
    rfl
  | none =>
    refine ⟨db.profiles.nextPk, _, rfl, ?_, rfl, rfl⟩
    rintro found' ⟨⟩

end AliasManager

namespace PlayerIdentity

inductive Event where
  | game (game : Game)
  | player (env : LookupEnv) (name ip : Text) (player : Player)

def createPlayer (player : Player) (aliasId : AliasId) (ip : IPv4) : DbTx Unit :=
  write fun db => { db with
    players := db.players.create (fun pk => { player with pk, aliasId, ip }) fun _ => rfl }

/-- One player of a game save, with any game and stats. -/
def savePlayer (outside : External) (env : LookupEnv) (name ip : Text) (player : Player) :
    DbTx Unit := atomic do
  let (aliasId, _) ← AliasManager.matchOrCreate outside env name ip
  match parseIPv4 ip with
  | none => raise (.addressValueError ip)
  | some ipAddress => createPlayer player aliasId ipAddress

/-- The provider of an address is `ispOf` of it whenever the address is looked up. -/
def system (outside : External) (ispOf : IPv4 → Option IspId) : System Database Event where
  enabled db
    | .game _ => True
    | .player env name ip _ => name ≠ [] ∧ ∃ ipAddress created, parseIPv4 ip = some ipAddress ∧
        ((ISPManager.matchOrCreate (env.pick 4) env.whois ipAddress).run db).1 =
          .ok (ispOf ipAddress, created)
  next db
    | .game game =>
      { db with games := db.games.create (fun pk => { game with pk }) game.withPk_pk }
    | .player env name ip player => ((savePlayer outside env name ip player).run db).2

structure Invariant (outside : External) (ispOf : IPv4 → Option IspId) (db : Database) :
    Prop where
  unique : ∀ a ∈ db.aliases.rows, ∀ b ∈ db.aliases.rows,
    a.name = b.name → a.isp = b.isp → a = b
  shared : ∀ a ∈ db.aliases.rows, ∀ b ∈ db.aliases.rows, a.isp ≠ none → a.isp = b.isp →
    outside.upper a.name = outside.upper b.name → isNamePopular a.name = false →
    isNamePopular b.name = false → a.profile = b.profile
  players : ∀ p ∈ db.players.rows, ∃ a ∈ db.aliases.rows, a.pk = p.aliasId ∧ a.isp = ispOf p.ip

section Save

variable {outside : External} {ispOf : IPv4 → Option IspId} {db : Database}

/-- If another alias would have to share the profile of a new one, the cascade finds it. -/
theorem firstMatch_eq_some (hinv : Invariant outside ispOf db)
    (hupper : ∀ s t, outside.upper s = outside.upper t → isNamePopular s = isNamePopular t)
    {name : Text} {ip : IPv4} {isp : IspId} (hisp : ispOf ip = some isp)
    (hname : isNamePopular name = false) {b : Alias} (hb : b ∈ db.aliases.rows)
    (hbisp : b.isp = some isp) (hbname : outside.upper b.name = outside.upper name)
    (env : LookupEnv) (country : Option String) :
    ProfileManager.firstMatch outside env db 0
      (ProfileManager._prepareMatchSmartSteps name ip (some isp) country) = some b.profile := by
  have hsame : ∀ c ∈ db.aliases.rows, c.isp = some isp →
      outside.upper c.name = outside.upper name → c.profile = b.profile := by
    intro c hc hcisp hcname
    refine hinv.shared c hc b hb (by simp [hcisp]) (hcisp.trans hbisp.symm)
      (hcname.trans hbname.symm) ?_ ?_
    · rw [hupper _ _ hcname, hname]
    · rw [hupper _ _ hbname, hname]
  have hsteps : ∃ rest, ProfileManager._prepareMatchSmartSteps name ip (some isp) country =
      { name := some name, ip := some ip } :: { name := some name, isp := some isp } :: rest := by
    simp only [ProfileManager._prepareMatchSmartSteps, hname, Bool.not_false, if_true]
    exact ⟨_, rfl⟩
  obtain ⟨rest, hsteps⟩ := hsteps
  rw [hsteps]
  apply ProfileManager.firstMatch_of_forall
  · -- name and address: the player found was stored with the provider of the address
    intro c hc
    obtain ⟨hc, hmatch⟩ := List.mem_filter.mp hc
    simp only [ProfileManager.aliasMatches, Option.all_some, Option.all_none, decide_eq_true_eq,
      List.any_eq_true, ProfileManager.playerMatches] at hmatch
    obtain ⟨hcname, _, _, hplayer⟩ := hmatch
    obtain ⟨p, hp, hpc, hpip, _⟩ := hplayer (.inl (by simp))
    obtain ⟨a, ha, hapk, haisp⟩ := hinv.players p hp
    obtain rfl : a = c := db.aliases.eq_of_key_eq ha hc (hapk.trans hpc)
    exact hsame a hc (by rw [haisp, hpip, hisp]) hcname
  · intro _
    apply ProfileManager.firstMatch_of_forall
    · intro c hc
      obtain ⟨hc, hmatch⟩ := List.mem_filter.mp hc
      simp only [ProfileManager.aliasMatches, Option.all_some, Option.all_none,
        decide_eq_true_eq] at hmatch
      exact hsame c hc hmatch.2.1 hmatch.1
    · intro hnone
      have hmem : b ∈ ProfileManager.matchingAliases outside
          { name := some name, isp := some isp } (env.clock 1) db := by
        refine List.mem_filter.mpr ⟨hb, ?_⟩
        simp [ProfileManager.aliasMatches, hbname, hbisp]
      rw [hnone] at hmem
      cases hmem

theorem run_matchOrCreate (hinv : Invariant outside ispOf db)
    (hupper : ∀ s t, outside.upper s = outside.upper t → isNamePopular s = isNamePopular t)
    {env : LookupEnv} {name ip : Text} {ipAddress : IPv4} {created : Bool} (hname : name ≠ [])
    (hip : parseIPv4 ip = some ipAddress)
    (hisp : ((ISPManager.matchOrCreate (env.pick 4) env.whois ipAddress).run db).1 =
      .ok (ispOf ipAddress, created)) :
    ∃ aliasId created' db', (AliasManager.matchOrCreate outside env name ip).run db =
        (.ok (aliasId, created'), db') ∧
      Invariant outside ispOf db' ∧
      ∃ a ∈ db'.aliases.rows, a.pk = aliasId ∧ a.isp = ispOf ipAddress := by
  obtain ⟨db₁, hrun⟩ : ∃ db₁, (ISPManager.matchOrCreate (env.pick 4) env.whois ipAddress).run db =
      (.ok (ispOf ipAddress, created), db₁) := ⟨_, Prod.ext hisp rfl⟩
  have hframe : (db₁.aliases, db₁.players) = (db.aliases, db.players) := by
    have hkeeps := (ISPManager.keeps_matchOrCreate (f := fun db => (db.aliases, db.players))
      (fun _ _ _ => rfl) (env.pick 4) env.whois ipAddress).run db
    rwa [hrun] at hkeeps
  obtain ⟨haliases, hplayers⟩ := Prod.mk.inj hframe
  have hinv₁ : Invariant outside ispOf db₁ := by
    obtain ⟨hunique, hshared, hstored⟩ := hinv
    exact ⟨by rwa [haliases], by rwa [haliases], by rwa [haliases, hplayers]⟩
  rw [AliasManager.matchOrCreate, if_neg hname, hip]
  simp only [run_bind, hrun, run_read]
  cases hrow : Table.anyRow (env.pick 5) (db₁.aliases.rows.filter fun row =>
      row.name = name ∧ row.isp = ispOf ipAddress) with
  | some row =>
    have hmem := List.mem_filter.mp (Table.anyRow_mem hrow)
    simp only [decide_eq_true_eq] at hmem
    exact ⟨row.pk, false, db₁, rfl, hinv₁, row, hmem.1, rfl, hmem.2.2⟩
  | none =>
    have hfresh : ∀ a ∈ db₁.aliases.rows, ¬ (a.name = name ∧ a.isp = ispOf ipAddress) := by
      have hnil := Table.anyRow_eq_none_iff.mp hrow
      simpa using List.filter_eq_nil_iff.mp hnil
    obtain ⟨profile, db₂, hcreate, hfound, haliases₂, hplayers₂⟩ :=
      AliasManager.run_createAlias outside env name ipAddress (ispOf ipAddress)
        ((ispOf ipAddress).bind fun isp => (db₁.isps.find? isp).bind Isp.country) db₁
    simp only [run_bind, hcreate, run_pure]
    set new : Alias :=
      ⟨db₁.aliases.nextPk, name, profile, ispOf ipAddress, env.clock 4, env.clock 4⟩
    have hrows : ∀ a, a ∈ db₂.aliases.rows ↔ a ∈ db₁.aliases.rows ∨ a = new := by
      intro a
      rw [haliases₂, Table.mem_create]
    -- the only aliases that share a profile with the new one are those that the cascade finds
    have hprofile : ∀ b ∈ db₁.aliases.rows, b.isp ≠ none → b.isp = new.isp →
        outside.upper b.name = outside.upper name → isNamePopular name = false →
        profile = b.profile := by
      intro b hb hbsome hbisp hbname hpopular
      obtain ⟨isp, hbi⟩ := Option.ne_none_iff_exists'.mp hbsome
      have hispOf : ispOf ipAddress = some isp := hbisp.symm.trans hbi
      apply hfound
      rw [hispOf]
      exact firstMatch_eq_some hinv₁ hupper hispOf hpopular hb hbi hbname env _
    refine ⟨_, true, db₂, rfl, ⟨?_, ?_, ?_⟩, new, (hrows new).mpr (.inr rfl), rfl, rfl⟩
    · intro a ha b hb hab hisps
      obtain ha | rfl := (hrows a).mp ha
      · obtain hb | rfl := (hrows b).mp hb
        · exact hinv₁.unique a ha b hb hab hisps
        · exact absurd ⟨hab, hisps⟩ (hfresh a ha)
      · obtain hb | rfl := (hrows b).mp hb
        · exact absurd ⟨hab.symm, hisps.symm⟩ (hfresh b hb)
        · rfl
    · intro a ha b hb hsome hisps hnames hpa hpb
      obtain ha | rfl := (hrows a).mp ha
      · obtain hb | rfl := (hrows b).mp hb
        · exact hinv₁.shared a ha b hb hsome hisps hnames hpa hpb
        · exact (hprofile a ha hsome hisps hnames hpb).symm
      · obtain hb | rfl := (hrows b).mp hb
        · exact hprofile b hb (by rwa [← hisps]) hisps.symm hnames.symm hpa
        · rfl
    · intro p hp
      rw [hplayers₂] at hp
      obtain ⟨a, ha, hpk, haisp⟩ := hinv₁.players p hp
      exact ⟨a, (hrows a).mpr (.inl ha), hpk, haisp⟩

theorem invariant_savePlayer (hinv : Invariant outside ispOf db)
    (hupper : ∀ s t, outside.upper s = outside.upper t → isNamePopular s = isNamePopular t)
    {env : LookupEnv} {name ip : Text} {player : Player} {ipAddress : IPv4} {created : Bool}
    (hname : name ≠ []) (hip : parseIPv4 ip = some ipAddress)
    (hisp : ((ISPManager.matchOrCreate (env.pick 4) env.whois ipAddress).run db).1 =
      .ok (ispOf ipAddress, created)) :
    Invariant outside ispOf ((savePlayer outside env name ip player).run db).2 := by
  obtain ⟨aliasId, created', db', hrun, hinv', a, ha, hpk, haisp⟩ :=
    run_matchOrCreate hinv hupper hname hip hisp
  rw [savePlayer, run_atomic]
  simp only [run_bind, hrun, hip, createPlayer, run_write]
  obtain ⟨hunique, hshared, hplayers⟩ := hinv'
  refine ⟨hunique, hshared, ?_⟩
  intro p hp
  obtain hp | rfl := Table.mem_create.mp hp
  · exact hplayers p hp
  · exact ⟨a, ha, hpk, haisp⟩

end Save

theorem invariant_run {outside : External} {ispOf : IPv4 → Option IspId} {db₀ db : Database}
    {es : List Event}
    (hupper : ∀ s t, outside.upper s = outside.upper t → isNamePopular s = isNamePopular t)
    (haliases : db₀.aliases.rows = []) (hplayers : db₀.players.rows = [])
    (hrun : Run (system outside ispOf) db₀ es db) : Invariant outside ispOf db := by
  refine hrun.invariant ?_ ⟨by simp [haliases], by simp [haliases], by simp [hplayers]⟩
  intro db e hinv henabled
  cases e with
  | game game => exact ⟨hinv.unique, hinv.shared, hinv.players⟩
  | player env name ip player =>
    obtain ⟨hname, ipAddress, created, hip, hisp⟩ := henabled
    exact invariant_savePlayer hinv hupper hname hip hisp

theorem identities_of_run {outside : External} {ispOf : IPv4 → Option IspId} {db₀ db : Database}
    {es : List Event}
    (hupper : ∀ s t, outside.upper s = outside.upper t → isNamePopular s = isNamePopular t)
    (haliases : db₀.aliases.rows = []) (hplayers : db₀.players.rows = [])
    (hrun : Run (system outside ispOf) db₀ es db) :
    (∀ a ∈ db.aliases.rows, ∀ b ∈ db.aliases.rows, a.name = b.name → a.isp = b.isp → a = b) ∧
    ∀ a ∈ db.aliases.rows, ∀ b ∈ db.aliases.rows, a.isp ≠ none → a.isp = b.isp →
      outside.upper a.name = outside.upper b.name → isNamePopular a.name = false →
      isNamePopular b.name = false → a.profile = b.profile := by
  have hinv := invariant_run hupper haliases hplayers hrun
  exact ⟨hinv.unique, hinv.shared⟩

def asciiUpper (c : Char) : Char :=
  if 'a' ≤ c ∧ c ≤ 'z' then Char.ofNat (c.toNat - 32) else c

theorem foldCase_asciiUpper (c : Char) : foldCase (asciiUpper c) = foldCase c := by
  unfold asciiUpper
  split
  · rename_i hc
    have hrange : 97 ≤ c.toNat ∧ c.toNat ≤ 122 := by
      simpa [Char.le_def, UInt32.le_iff_toNat_le] using hc
    have hletters : ∀ n : Fin 26,
        foldCase (Char.ofNat (n + 65)) = foldCase (Char.ofNat (n + 97)) := by decide
    have hletter := hletters ⟨c.toNat - 97, by omega⟩
    rw [show c.toNat - 97 + 65 = c.toNat - 32 by omega,
      show c.toNat - 97 + 97 = c.toNat by omega, Char.ofNat_toNat] at hletter
    exact hletter
  · rfl

def asciiOutside : External where
  upper s := s.map asciiUpper
  isWord c := c.isAlphanum || c = '_'
  slugify s := s
  sha1Hexdigest s := s

theorem isNamePopular_of_asciiUpper (s t : Text) (h : asciiOutside.upper s = asciiOutside.upper t) :
    isNamePopular s = isNamePopular t := by
  apply isNamePopular_congr
  have hfold := congrArg (List.map foldCase) h
  simpa [asciiOutside, Function.comp_def, foldCase_asciiUpper] using hfold

def sampleEnv : LookupEnv where
  whois := some ⟨some "Verizon", some "us", 0x0A000000, 0x0A0000FF⟩
  clock _ := 1000

def samplePlayer : Player where
  pk := 0
  game := 1
  aliasId := 0
  loadout := 1
  ip := 0

/-- Two players of one provider whose names differ in case. -/
def twoPlayers : List Event :=
  [.player sampleEnv "Serge".toList "10.0.0.1".toList samplePlayer,
    .player sampleEnv "SERGE".toList "10.0.0.2".toList samplePlayer]

theorem identities_of_twoPlayers :
    (∃ a ∈ (twoPlayers.foldl (system asciiOutside fun _ => some 1).next
        Database.empty).aliases.rows, a.name = "SERGE".toList ∧ a.profile = 1) ∧
    ∀ a ∈ (twoPlayers.foldl (system asciiOutside fun _ => some 1).next
        Database.empty).aliases.rows,
      ∀ b ∈ (twoPlayers.foldl (system asciiOutside fun _ => some 1).next
        Database.empty).aliases.rows, a.isp ≠ none → a.isp = b.isp →
      asciiOutside.upper a.name = asciiOutside.upper b.name → isNamePopular a.name = false →
      isNamePopular b.name = false → a.profile = b.profile := by
  have hfirst : (system asciiOutside fun _ => some 1).enabled Database.empty
      (.player sampleEnv "Serge".toList "10.0.0.1".toList samplePlayer) :=
    ⟨by decide, 0x0A000001, true, by decide +kernel, by decide +kernel⟩
  have hsecond : (system asciiOutside fun _ => some 1).enabled
      ((system asciiOutside fun _ => some 1).next Database.empty
        (.player sampleEnv "Serge".toList "10.0.0.1".toList samplePlayer))
      (.player sampleEnv "SERGE".toList "10.0.0.2".toList samplePlayer) :=
    ⟨by decide, 0x0A000002, false, by decide +kernel, by decide +kernel⟩
  have hrun : Run (system asciiOutside fun _ => some 1) Database.empty twoPlayers
      (twoPlayers.foldl (system asciiOutside fun _ => some 1).next Database.empty) :=
    .cons hfirst (.cons hsecond (.nil _))
  exact ⟨by decide +kernel,
    (identities_of_run isNamePopular_of_asciiUpper rfl rfl hrun).2⟩

end PlayerIdentity

end Swat4Stats
