import Swat4Stats.ColumnFit

/-!
# Which accepted reports are stored

The save of a report with the checks that the columns make. When all the values fit, the save is
refused only for a tag that is there already, for a provider that is there twice, or for a whois
answer that its own columns do not take, and no report can cause these two.
-/

namespace Swat4Stats

set_option autoImplicit false

open Tx

/-- What the columns and the unique constraints keep. -/
structure Database.Consistent (outside : External) (db : Database) : Prop where
  columns : db.FitsColumns outside
  maps : ∀ map ∈ db.maps.rows, ∀ map' ∈ db.maps.rows, map.name = map'.name → map = map'
  loadouts : ∀ row ∈ db.loadouts.rows, ∀ row' ∈ db.loadouts.rows,
    row.slots = row'.slots → row = row'

/-- No constraint keeps this one. -/
def Database.ProvidersUnique (db : Database) : Prop :=
  ∀ isp ∈ db.isps.rows, ∀ isp' ∈ db.isps.rows, isp.name ≠ none → isp.name = isp'.name →
    isp.country = isp'.country → isp = isp'

namespace GameManager

def checkColumns (outside : External) : DbTx Unit :=
  statement fun db => if db.FitsColumns outside then .ok ((), db) else .error (.dataError "game")

/-- `create_game` with the checks of the columns. They stand at the end: the transaction is undone
whichever statement fails. -/
def createStoredGame (outside : External) (envs : ℕ → LookupEnv) (server : ServerId)
    (data : GameData) (dateFinished : Time) : DbTx Game := atomic do
  let game ← createGame outside envs server data dateFinished
  checkColumns outside
  pure game

end GameManager

namespace Tasks

def storeGameOrRetry (outside : External) (envs : ℕ → LookupEnv) (server : ServerId)
    (data : GameData) (dataReceivedAt : Time) : DbTx TaskOutcome :=
  rescue
    (do
      let game ← GameManager.createStoredGame outside envs server data dataReceivedAt
      pure (.saved game))
    handleCreateError

end Tasks

namespace StoredReports

open GameManager

def TagSaved (data : GameData) (db : Database) : Prop :=
  ∃ game ∈ db.games.rows, game.tag = some data.tag

/-- Some whois answer has a name or a country that the columns of a provider do not take. -/
def AnswerUnfit (outside : External) (envs : ℕ → LookupEnv) : Prop :=
  ∃ index, ∃ network ∈ (envs index).whois, ¬ FitsIsp outside network.description network.country

/-- What a save may be refused for without any value of the report being at fault. -/
structure Reasons where
  tagSaved : Prop
  providerRepeated : Prop
  answerUnfit : Prop

/-- The reasons that there are before a save. -/
def reasonsOf (outside : External) (data : GameData) (envs : ℕ → LookupEnv) (db : Database) :
    Reasons where
  tagSaved := TagSaved data db
  providerRepeated := ¬ db.ProvidersUnique
  answerUnfit := AnswerUnfit outside envs

/-- The outcome of a save that the values of the report do not fail. -/
def Blameless (outside : External) (reasons : Reasons) : Tasks.TaskOutcome → Database → Prop
  | .saved _, after => after.Consistent outside
  | .alreadySaved, _ => reasons.tagSaved
  | .retry e, _ => e = .raised .multipleObjectsReturned ∧ reasons.providerRepeated ∨
      e = .raised (.dataError "game") ∧ reasons.answerUnfit

def FailsOnlyOnTag (outside : External) (data : GameData) : Prop :=
  ∀ envs server dateFinished db, db.Consistent outside → ∃ outcome db',
    (Tasks.storeGameOrRetry outside envs server data dateFinished).run db = (.ok outcome, db') ∧
      Blameless outside (reasonsOf outside data envs db) outcome db'

inductive Refused (reasons : Reasons) : Failure TrackerError → Prop where
  | tag (h : reasons.tagSaved) : Refused reasons (.raised .gameAlreadySavedError)
  | provider (h : reasons.providerRepeated) : Refused reasons (.raised .multipleObjectsReturned)
  | answer (h : reasons.answerUnfit) : Refused reasons (.raised (.dataError "game"))

/-- What every statement of a save keeps. -/
structure Kept (outside : External) (reasons : Reasons) (db : Database) : Prop where
  columns : ¬ reasons.answerUnfit → db.FitsColumns outside
  maps : ∀ map ∈ db.maps.rows, ∀ map' ∈ db.maps.rows, map.name = map'.name → map = map'
  loadouts : ∀ row ∈ db.loadouts.rows, ∀ row' ∈ db.loadouts.rows,
    row.slots = row'.slots → row = row'
  providers : ¬ reasons.providerRepeated → db.ProvidersUnique

variable {outside : External} {data : GameData} {reasons : Reasons}

section Kept

variable {db db' : Database}

/-- What a statement on a table without unique columns has to keep. -/
theorem Kept.of_columns (h : Kept outside reasons db)
    (hcolumns : db.FitsColumns outside → db'.FitsColumns outside)
    (hmaps : db'.maps = db.maps) (hloadouts : db'.loadouts = db.loadouts)
    (hisps : db'.isps = db.isps) : Kept outside reasons db' := by
  refine ⟨fun hunfit => hcolumns (h.columns hunfit), ?_, ?_, ?_⟩
  · rw [hmaps]
    exact h.maps
  · rw [hloadouts]
    exact h.loadouts
  · rw [Database.ProvidersUnique, hisps]
    exact h.providers

theorem eq_of_columns {α β : Type} [DecidableEq β] {f : α → β} {rows : List α}
    (hunique : ∀ x ∈ rows, ∀ y ∈ rows, f x = f y → x = y) (value : β) :
    ∀ x ∈ rows, ∀ y ∈ rows, decide (f x = value) = true → decide (f y = value) = true → x = y :=
  fun x hx y hy hfound hfound' =>
    hunique x hx y hy ((of_decide_eq_true hfound).trans (of_decide_eq_true hfound').symm)

/-- When the query finds at most one row, `get` raises nothing. -/
theorem settles_getOrCreate {α : Type} {key : α → ℕ} {P : Database → Prop}
    {E : Failure TrackerError → Prop} (table : Database → Table α key) {condition : α → Bool}
    {create : DbTx ℕ}
    (hfound : ∀ db, P db → E (.raised .multipleObjectsReturned) ∨
      ∀ x ∈ (table db).rows, ∀ y ∈ (table db).rows, condition x = true → condition y = true → x = y)
    (hcreate : Settles create
      (fun db => (∀ x ∈ (table db).rows, condition x = false) ∧ P db) (fun _ => P) E) :
    Settles (getOrCreate (fun db => (table db).rows.filter condition) key create)
      P (fun _ => P) E := by
  refine Settles.bind (Q := fun found db => P db ∧ found = (table db).rows.filter condition)
    (Settles.read fun db hp => ⟨hp, rfl⟩) fun found => ?_
  match found with
  | [] =>
    refine Settles.bind (Q := fun _ => P) (Settles.atomic (hcreate.mono ?_ fun _ _ h => h))
      fun _ => Settles.pure fun _ h => h
    rintro db ⟨hp, hnone⟩
    refine ⟨fun x hx => ?_, hp⟩
    have hfalse := List.filter_eq_nil_iff.mp hnone.symm x hx
    simpa using hfalse
  | [x] => exact Settles.pure fun _ h => h.1
  | x :: y :: rest =>
    refine Settles.of_forall fun db hdb => Settles.raise ?_
    obtain ⟨hp, hmany⟩ := hdb
    obtain hraised | hone := hfound db hp
    · exact hraised
    · obtain hnil | ⟨z, hz⟩ := (table db).filter_eq_nil_or_singleton hone
      · simp [hnil] at hmany
      · simp [hz] at hmany

end Kept

section Providers

open ISPManager

variable {db : Database}

/-- A provider without a name is never looked for. -/
theorem Kept.createIsp {name country : Option String} (h : Kept outside reasons db)
    (hfits : ¬ reasons.answerUnfit → FitsIsp outside name country)
    (hnew : name ≠ none → ∀ isp ∈ db.isps.rows, ¬ (isp.name = name ∧ isp.country = country)) :
    Kept outside reasons
      { db with isps := db.isps.create (fun pk => { pk, name, country }) fun _ => rfl } := by
  refine ⟨fun hunfit => { h.columns hunfit with
    isps := Table.forall_mem_create (h.columns hunfit).isps fun _ => hfits hunfit },
    h.maps, h.loadouts, ?_⟩
  intro honce isp hisp isp' hisp' hnamed hname hcountry
  obtain hisp | rfl := Table.mem_create.mp hisp
  · obtain hisp' | rfl := Table.mem_create.mp hisp'
    · exact h.providers honce isp hisp isp' hisp' hnamed hname hcountry
    · exact absurd ⟨hname, hcountry⟩ (hnew (fun hnone => hnamed (hname.trans hnone)) isp hisp)
  · obtain hisp' | rfl := Table.mem_create.mp hisp'
    · exact absurd ⟨hname.symm, hcountry.symm⟩ (hnew hnamed isp' hisp')
    · rfl

theorem settles_obtainIsp {name country : Option String}
    (hfits : ¬ reasons.answerUnfit → FitsIsp outside name country) :
    Settles (obtainIsp name country) (Kept outside reasons) (fun _ => Kept outside reasons)
      (Refused reasons) := by
  cases name with
  | none =>
    refine Settles.bind (Settles.statement_ok fun db hkept => ?_) fun _ => Settles.pure fun _ h => h
    exact hkept.createIsp hfits fun hnamed => absurd rfl hnamed
  | some name =>
    refine settles_getOrCreate Database.isps ?_ (Settles.statement_ok ?_)
    · intro db hkept
      obtain hrepeated | honce := Classical.em reasons.providerRepeated
      · exact .inl (.provider hrepeated)
      · right
        intro isp hisp isp' hisp' hfound hfound'
        obtain ⟨hname, hcountry⟩ := of_decide_eq_true hfound
        obtain ⟨hname', hcountry'⟩ := of_decide_eq_true hfound'
        exact hkept.providers honce isp hisp isp' hisp' (by simp [hname])
          (hname.trans hname'.symm) (hcountry.trans hcountry'.symm)
    · rintro db ⟨hnone, hkept⟩
      exact hkept.createIsp hfits fun _ isp hisp => of_decide_eq_false (hnone isp hisp)

theorem fitsIsp_lookupItem {name country : Option String} (h : FitsIsp outside name country) :
    FitsIsp outside (lookupItem name) (lookupItem country) := by
  constructor
  · exact fun text htext => h.1 text (Option.filter_eq_some_iff.mp htext).1
  · exact fun text htext => h.2 text (Option.filter_eq_some_iff.mp htext).1

theorem settles_registerNetwork {network : WhoisQueryResult}
    (hfits : ¬ reasons.answerUnfit → FitsIsp outside network.description network.country) :
    Settles (registerNetwork network) (Kept outside reasons) (fun _ => Kept outside reasons)
      (Refused reasons) := by
  have hranges : ∀ {db : Database} {ipRanges}, Kept outside reasons db →
      Kept outside reasons { db with ipRanges } := fun h =>
    h.of_columns (fun hcolumns => { hcolumns with }) rfl rfl rfl
  refine Settles.atomic (Settles.read_bind fun known => ?_)
  match known with
  | some range => exact Settles.pure fun _ h => h
  | none =>
    have hcreate : Settles (Tx.atomic (createIpRange network.cidrFrom network.cidrTo))
        (Kept outside reasons) (fun _ => Kept outside reasons) (Refused reasons) :=
      Settles.atomic (Settles.statement_ok fun _ hkept => hranges hkept)
    refine hcreate.bind fun rangePk => (settles_obtainIsp ?_).bind fun isp => ?_
    · exact fun hunfit => fitsIsp_lookupItem (hfits hunfit)
    refine Settles.bind (Q := fun _ => Kept outside reasons) (Settles.write fun db hkept => ?_)
      fun _ => Settles.pure fun _ h => h
    exact hranges hkept

theorem settles_matchProvider (pick : ℕ) {whois : Option WhoisQueryResult} (ip : IPv4)
    (hfits : ¬ reasons.answerUnfit → ∀ network ∈ whois,
      FitsIsp outside network.description network.country) :
    Settles (ISPManager.matchOrCreate pick whois ip)
      (Kept outside reasons) (fun _ => Kept outside reasons) (Refused reasons) := by
  have hwhois : ∀ fallback, Settles (matchByWhois whois fallback) (Kept outside reasons)
      (fun _ => Kept outside reasons) (Refused reasons) := by
    intro fallback
    cases whois with
    | none => exact Settles.pure fun _ h => h
    | some network => exact settles_registerNetwork fun hunfit => hfits hunfit network rfl
  refine Settles.read_bind fun matched => ?_
  match matched with
  | none => exact hwhois none
  | some (isp, length) =>
    simp only
    split
    · exact hwhois isp
    · exact Settles.pure fun _ h => h

end Providers

section Aliases

theorem settles_matchSteps {P : Database → Prop} {E : Failure TrackerError → Prop}
    (env : LookupEnv) (position : ℕ) (steps : List MatchStep) :
    Settles (ProfileManager.matchSteps outside env position steps) P (fun _ => P) E := by
  induction steps generalizing position with
  | nil => exact Settles.pure fun _ h => h
  | cons step steps ih =>
    refine Settles.read_bind fun matched => ?_
    cases matched with
    | none => exact ih _
    | some profile => exact Settles.pure fun _ h => h

theorem settles_createAlias (env : LookupEnv) {name : Text} (hname : FitsText outside 64 name)
    (ip : IPv4) (isp : Option IspId) (country : Option String) :
    Settles (AliasManager.createAlias outside env name ip isp country) (Kept outside reasons)
      (fun _ => Kept outside reasons) (Refused reasons) := by
  have hprofile : Settles
      (ProfileManager.matchSmartOrCreate outside env name ip isp country) (Kept outside reasons)
      (fun _ => Kept outside reasons) (Refused reasons) := by
    refine (settles_matchSteps env 0 _).bind fun matched => ?_
    cases matched with
    | some profile => exact Settles.pure fun _ h => h
    | none =>
      refine Settles.bind (Q := fun _ => Kept outside reasons)
        (Settles.statement_ok fun db hkept => ?_) fun _ => Settles.pure fun _ h => h
      refine hkept.of_columns (fun hcolumns => { hcolumns with profiles := ?_ }) rfl rfl rfl
      apply Table.forall_mem_create hcolumns.profiles
      rintro pk _ ⟨⟩
      exact hname
  refine Settles.atomic (hprofile.bind fun profile => ?_)
  refine Settles.bind (Q := fun _ => Kept outside reasons) (Settles.statement_ok fun db hkept => ?_)
    fun newAlias => ?_
  · refine hkept.of_columns (fun hcolumns => { hcolumns with aliases := ?_ }) rfl rfl rfl
    exact Table.forall_mem_create hcolumns.aliases fun _ => hname
  · refine Settles.bind (Q := fun _ => Kept outside reasons) (Settles.write fun db hkept => ?_)
      fun _ => Settles.pure fun _ h => h
    refine hkept.of_columns (fun hcolumns => { hcolumns with profiles := ?_ }) rfl rfl rfl
    refine Table.forall_mem_update ?_ hcolumns.profiles ?_
    · exact fun _ => rfl
    · exact fun _ hfits => hfits

theorem settles_matchAlias {env : LookupEnv} {name ip : Text} (hne : name ≠ [])
    (hname : FitsText outside 64 name) (hip : parseIPv4 ip ≠ none)
    (hwhois : ¬ reasons.answerUnfit → ∀ network ∈ env.whois,
      FitsIsp outside network.description network.country) :
    Settles (AliasManager.matchOrCreate outside env name ip) (Kept outside reasons)
      (fun _ => Kept outside reasons) (Refused reasons) := by
  rw [AliasManager.matchOrCreate, if_neg hne]
  split
  · rename_i hnone
    exact absurd hnone hip
  · refine (settles_matchProvider _ _ hwhois).bind fun isp => ?_
    refine Settles.read_bind fun country => ?_
    refine Settles.read_bind fun matched => ?_
    cases matched with
    | some row => exact Settles.pure fun _ h => h
    | none => exact (settles_createAlias env hname _ _ _).bind fun _ => Settles.pure fun _ h => h

theorem forceName_ne_nil {name ip aliasName : Text}
    (h : forceName outside name ip = some aliasName) : aliasName ≠ [] := by
  rw [forceName, forceValidName] at h
  split at h
  · obtain ⟨numericIp, _, rfl⟩ := Option.map_eq_some_iff.mp h
    simp
  · rename_i hne
    obtain rfl := Option.some.inj h
    exact hne

theorem exists_forceName (outside : External) (name : Text) {ip : Text}
    (hip : parseIPv4 ip ≠ none) :
    ∃ aliasName, forceName outside name ip = some aliasName := by
  obtain ⟨numericIp, hnumericIp⟩ := Option.ne_none_iff_exists'.mp hip
  rw [forceName, forceValidName]
  split
  · exact ⟨_, congrArg (Option.map _) hnumericIp⟩
  · exact ⟨_, rfl⟩

end Aliases

section Rows

theorem settles_obtainFor {P : Table Game Game.pk → Prop} {E : Failure TrackerError → Prop}
    (hmap : ∀ pk, ({ pk, name := data.mapname, slug := outside.slugify data.mapname } :
      GameMap).FitsColumns outside) :
    Settles (MapManager.obtainFor outside data.mapname)
      (fun db => Kept outside reasons db ∧ P db.games)
      (fun _ db => Kept outside reasons db ∧ P db.games) E := by
  refine Settles.bind (settles_getOrCreate Database.maps ?_ (Settles.statement_ok ?_))
    fun _ => Settles.pure fun _ h => h
  · rintro db ⟨hkept, _⟩
    exact .inr (eq_of_columns hkept.maps data.mapname)
  · rintro db ⟨hnone, hkept, hgames⟩
    refine ⟨⟨fun hunfit => ?_, ?_, hkept.loadouts, hkept.providers⟩, hgames⟩
    · have hcolumns := hkept.columns hunfit
      exact { hcolumns with maps := Table.forall_mem_create hcolumns.maps hmap }
    · exact Table.inj_create hkept.maps fun map hmem =>
        of_decide_eq_false (hnone map hmem)

theorem fits_loadout (pk : LoadoutId) (slots : LoadoutSlots Equipment Ammo) :
    ({ pk, slots, legacy := slots.map Equipment.legacy Ammo.legacy } : Loadout).FitsColumns := by
  rw [Loadout.FitsColumns, Loadout.smallints]
  simp only [LoadoutSlots.map, List.forall_mem_cons, fits_equipment, fits_ammo, true_and]
  simp

theorem settles_obtainLoadout (loadout : Option (LoadoutSlots Equipment Ammo)) :
    Settles (LoadoutManager.obtain loadout) (Kept outside reasons) (fun _ => Kept outside reasons)
      (Refused reasons) := by
  refine Settles.bind (settles_getOrCreate Database.loadouts ?_
    (Settles.statement_ok ?_)) fun _ => Settles.pure fun _ h => h
  · exact fun db hkept => .inr (eq_of_columns hkept.loadouts _)
  · rintro db ⟨hnone, hkept⟩
    refine ⟨fun hunfit => ?_, hkept.maps, ?_, hkept.providers⟩
    · have hcolumns := hkept.columns hunfit
      exact { hcolumns with
        loadouts := Table.forall_mem_create hcolumns.loadouts fun pk => fits_loadout pk _ }
    · exact Table.inj_create hkept.loadouts fun row hrow =>
        of_decide_eq_false (hnone row hrow)

theorem settles_createUnlessSaved (server : ServerId) (dateFinished : Time)
    (hstorable : Storable outside data) :
    Settles (createUnlessSaved outside server data dateFinished)
      (fun db => Kept outside reasons db ∧ (TagSaved data db → reasons.tagSaved))
      (fun game db => game.gametype = data.gametype ∧ Kept outside reasons db)
      (Refused reasons) := by
  have hcreate : Settles (createAtomically outside server data dateFinished)
      (fun db => Kept outside reasons db ∧ (TagSaved data db → reasons.tagSaved))
      (fun game db => game.gametype = data.gametype ∧ Kept outside reasons db)
      (fun e => reasons.tagSaved ∧ ∃ constraint, e = .raised (.integrityError constraint)) := by
    rw [createAtomically]
    refine Settles.atomic (Settles.bind (settles_obtainFor
      (P := fun games => (∃ game ∈ games.rows, game.tag = some data.tag) → reasons.tagSaved)
      hstorable.map) fun map => Settles.statement ?_ ?_)
    · rintro db game db' ⟨hkept, _⟩ hrow
      split at hrow
      · cases hrow
      · cases hrow
        refine ⟨rfl, hkept.of_columns (fun hcolumns => { hcolumns with games := ?_ }) rfl rfl rfl⟩
        exact Table.forall_mem_create hcolumns.games
          fun _ => hstorable.game server dateFinished map
    · rintro db e ⟨_, hsaved⟩ herror
      split at herror
      · rename_i htag
        cases herror
        exact ⟨hsaved htag.2, _, rfl⟩
      · cases herror
  rw [createUnlessSaved]
  apply Settles.rescue hcreate
  rintro _ ⟨hsaved, constraint, rfl⟩
  exact Settles.raise (.tag hsaved)

theorem settles_ifAny {β : Type} {P : Database → Prop} {E : Failure TrackerError → Prop}
    {xs : Option (List β)} {body : List β → DbTx Unit}
    (h : Settles (body (xs.getD [])) P (fun _ => P) E) :
    Settles (ifAny xs body) P (fun _ => P) E := by
  match xs with
  | none => exact Settles.pure fun _ hp => hp
  | some [] => exact Settles.pure fun _ hp => hp
  | some (x :: xs) => exact h

theorem settles_createGameProcedures (game : Game) {items : List ProcedureItem}
    (hfits : ∀ item ∈ items, (newProcedure game item).FitsColumns outside) :
    Settles (_createGameProcedures game items)
      (Kept outside reasons) (fun _ => Kept outside reasons) (Refused reasons) := by
  refine Settles.write fun db hkept => ?_
  refine hkept.of_columns (fun hcolumns => { hcolumns with procedures := ?_ }) rfl rfl rfl
  apply Table.forall_mem_createAll hcolumns.procedures
  intro row hrow pk
  obtain ⟨item, hitem, rfl⟩ := List.mem_map.mp hrow
  exact hfits item hitem

theorem exists_mapM_ok {α β ε : Type} {f : α → Except ε β} {P : β → Prop} {xs : List α}
    (h : ∀ x ∈ xs, ∃ y, f x = .ok y ∧ P y) : ∃ ys, xs.mapM f = .ok ys ∧ ∀ y ∈ ys, P y := by
  induction xs with
  | nil => exact ⟨[], rfl, by simp⟩
  | cons x xs ih =>
    obtain ⟨y, hy, hfirst⟩ := h x List.mem_cons_self
    obtain ⟨ys, hys, hrest⟩ := ih fun z hz => h z (List.mem_cons_of_mem _ hz)
    refine ⟨y :: ys, ?_, List.forall_mem_cons.mpr ⟨hfirst, hrest⟩⟩
    simp only [List.mapM_cons, hy, hys, bind, Except.bind, pure, Except.pure]

theorem settles_createGameObjectives (game : Game) {items : List ObjectiveItem}
    (hfits : ∀ item ∈ items, ∃ row, newObjective game item = .ok row ∧ row.FitsColumns) :
    Settles (_createGameObjectives game items)
      (Kept outside reasons) (fun _ => Kept outside reasons) (Refused reasons) := by
  obtain ⟨rows, hrows, hfits⟩ := exists_mapM_ok hfits
  simp only [_createGameObjectives, hrows]
  refine Settles.write fun db hkept => ?_
  refine hkept.of_columns (fun hcolumns => { hcolumns with objectives := ?_ }) rfl rfl rfl
  exact Table.forall_mem_createAll hcolumns.objectives
    fun row hrow _ => hfits row hrow

theorem isCoopGame_eq {game : Game} {gametype : GameType} (h : game.gametype = gametype) :
    game.isCoopGame = gametype.isCoop := by
  rw [Game.isCoopGame, h]
  rfl

theorem settles_createPlayerWeapons {game : Game} (hgame : game.gametype = data.gametype)
    (player : PlayerId) {weapons : Option (List WeaponItem)}
    (hfits : data.gametype.isCoop = false → ∃ rows,
      newWeapons player (weapons.getD []) = .ok rows ∧ ∀ row ∈ rows, row.FitsColumns) :
    Settles (createPlayerWeapons game player weapons)
      (Kept outside reasons) (fun _ => Kept outside reasons) (Refused reasons) := by
  rw [createPlayerWeapons, isCoopGame_eq hgame]
  split
  · exact Settles.pure fun _ h => h
  · rename_i hcoop
    obtain ⟨rows, hrows, hfits⟩ := hfits (Bool.eq_false_iff.mpr hcoop)
    apply settles_ifAny
    simp only [createWeapons, hrows]
    refine Settles.write fun db hkept => ?_
    refine hkept.of_columns (fun hcolumns => { hcolumns with weapons := ?_ }) rfl rfl rfl
    exact Table.forall_mem_createAll hcolumns.weapons
      fun row hrow _ => hfits row hrow

theorem settles_createGamePlayer {env : LookupEnv} {game : Game} {item : PlayerItem}
    (hgame : game.gametype = data.gametype)
    (hwhois : ¬ reasons.answerUnfit → ∀ network ∈ env.whois,
      FitsIsp outside network.description network.country)
    (hstorable : StorablePlayer outside data.gametype item) :
    Settles (createGamePlayer outside env game item)
      (Kept outside reasons) (fun _ => Kept outside reasons) (Refused reasons) := by
  obtain ⟨aliasName, hname⟩ := exists_forceName outside item.name hstorable.ip
  obtain ⟨ip, hip⟩ := Option.ne_none_iff_exists'.mp hstorable.ip
  simp only [createGamePlayer, hname, hip]
  refine (settles_matchAlias (forceName_ne_nil hname) (hstorable.aliasName _ hname) hstorable.ip
    hwhois).bind fun aliasId => ?_
  refine (settles_obtainLoadout item.loadout).bind fun loadout => ?_
  refine Settles.bind (Q := fun _ => Kept outside reasons) (Settles.statement_ok fun db hkept => ?_)
    fun player => ?_
  · refine hkept.of_columns (fun hcolumns => { hcolumns with players := ?_ }) rfl rfl rfl
    exact Table.forall_mem_create hcolumns.players
      fun _ => hstorable.row game aliasId.1 loadout ip
  · exact settles_createPlayerWeapons hgame player fun hcoop => hstorable.weapons hcoop player

theorem settles_createGame {envs : ℕ → LookupEnv} (server : ServerId) (dateFinished : Time)
    (hwhois : ¬ reasons.answerUnfit → ∀ index, ∀ network ∈ (envs index).whois,
      FitsIsp outside network.description network.country)
    (hstorable : Storable outside data) :
    Settles (createGame outside envs server data dateFinished)
      (fun db => Kept outside reasons db ∧ (TagSaved data db → reasons.tagSaved))
      (fun _ => Kept outside reasons) (Refused reasons) := by
  rw [createGame]
  refine Settles.atomic ((settles_createUnlessSaved server dateFinished hstorable).bind
    fun game => Settles.assuming fun hgame => ?_)
  refine (settles_ifAny (settles_createGameProcedures game fun item hitem =>
    hstorable.procedures item hitem game)).bind fun _ => ?_
  refine (settles_ifAny (settles_createGameObjectives game fun item hitem =>
    hstorable.objectives item hitem game)).bind fun _ => ?_
  refine Settles.bind (Q := fun _ => Kept outside reasons) (settles_ifAny (Settles.forEach ?_))
    fun _ => Settles.pure fun _ h => h
  rintro ⟨item, index⟩ hmem
  exact settles_createGamePlayer hgame (fun hunfit => hwhois hunfit index)
    (hstorable.players item (List.fst_mem_of_mem_zipIdx hmem))

theorem settles_createStoredGame {envs : ℕ → LookupEnv} (server : ServerId) (dateFinished : Time)
    (hwhois : ¬ reasons.answerUnfit → ∀ index, ∀ network ∈ (envs index).whois,
      FitsIsp outside network.description network.country)
    (hstorable : Storable outside data) :
    Settles (createStoredGame outside envs server data dateFinished)
      (fun db => Kept outside reasons db ∧ (TagSaved data db → reasons.tagSaved))
      (fun _ db => db.Consistent outside) (Refused reasons) := by
  rw [createStoredGame]
  refine Settles.atomic ((settles_createGame server dateFinished hwhois hstorable).bind
    fun game => ?_)
  refine Settles.bind (Q := fun _ db => db.Consistent outside) (Settles.statement ?_ ?_)
    fun _ => Settles.pure fun _ h => h
  · intro db _ db' hkept hcheck
    split at hcheck
    · rename_i hfits
      cases hcheck
      exact ⟨hfits, hkept.maps, hkept.loadouts⟩
    · cases hcheck
  · intro db e hkept hcheck
    split at hcheck
    · cases hcheck
    · rename_i hfits
      cases hcheck
      -- everything but a provider fits, as after any other statement of the save
      exact .answer (not_not.mp fun hunfit => hfits (hkept.columns hunfit))

theorem settles_storeGameOrRetry {envs : ℕ → LookupEnv} (server : ServerId) (dateFinished : Time)
    (hwhois : ¬ reasons.answerUnfit → ∀ index, ∀ network ∈ (envs index).whois,
      FitsIsp outside network.description network.country)
    (hstorable : Storable outside data) :
    Settles (Tasks.storeGameOrRetry outside envs server data dateFinished)
      (fun db => Kept outside reasons db ∧ (TagSaved data db → reasons.tagSaved))
      (Blameless outside reasons) (fun _ => False) := by
  rw [Tasks.storeGameOrRetry]
  refine Settles.rescue
    ((settles_createStoredGame server dateFinished hwhois hstorable).bind fun game => ?_) ?_
  · exact Settles.pure fun _ hconsistent => hconsistent
  · intro e hrefused
    cases hrefused with
    | tag hsaved => exact Settles.pure fun _ _ => hsaved
    | provider hrepeated => exact Settles.pure fun _ _ => .inl ⟨rfl, hrepeated⟩
    | answer hunfit => exact Settles.pure fun _ _ => .inr ⟨rfl, hunfit⟩

end Rows

/-- When everything fits, the save fails for no reason that lies in the report. -/
theorem failsOnlyOnTag_of_storable (hstorable : Storable outside data) :
    FailsOnlyOnTag outside data := by
  intro envs server dateFinished db hconsistent
  have hkept : Kept outside (reasonsOf outside data envs db) db :=
    ⟨fun _ => hconsistent.columns, hconsistent.maps, hconsistent.loadouts, not_not.mp⟩
  have hwhois : ¬ AnswerUnfit outside envs → ∀ index, ∀ network ∈ (envs index).whois,
      FitsIsp outside network.description network.country := fun hunfit index network hnetwork =>
    not_not.mp fun hfits => hunfit ⟨index, network, hnetwork, hfits⟩
  obtain ⟨outcome, db', hrun, hblameless⟩ | ⟨_, _, _, ⟨⟩⟩ :=
    (settles_storeGameOrRetry server dateFinished hwhois hstorable).run_cases ⟨hkept, id⟩
  exact ⟨outcome, db', hrun, hblameless⟩

/-- An accepted report can be saved whatever is stored, but for its tag, exactly when the bounds
hold that the schema does not check. -/
theorem storedSafely_iff {quote : Text → Text} {value : PyValue}
    (h : Schema.gameSchema quote value = some data) :
    (Storable outside data ∧ FailsOnlyOnTag outside data) ↔ WithinBounds outside data := by
  rw [← storable_iff (Schema.accepted_of_gameSchema h)]
  constructor
  · rintro ⟨hstorable, _⟩
    exact hstorable
  · intro hstorable
    exact ⟨hstorable, failsOnlyOnTag_of_storable hstorable⟩

def report (items : List (String × PyValue)) : PyValue :=
  .dict (items.map fun item => (item.1.toList, item.2))

def samplePlayer : PyValue :=
  report [("0", .int 0), ("1", .str "10.0.0.1".toList), ("5", .str "Serge".toList), ("8", .int 7),
    ("40", .list [report [("0", .int 9), ("7", .int 1500)]])]

def sampleReport (tag : String) : PyValue :=
  report [("0", .str tag.toList), ("1", .str "1.2.0".toList), ("2", .int 10480), ("3", .int 0),
    ("4", .str "0f1e2d3c".toList), ("6", .str "1.1".toList), ("7", .str "Server".toList),
    ("11", .int 1), ("12", .int 16), ("14", .int 5), ("15", .int 600), ("16", .int 300),
    ("17", .int 900), ("22", .int 1), ("27", .list [samplePlayer])]

theorem storedSafely_of_shortTag : ∃ data,
    Schema.gameSchema id (sampleReport "5b4f3c2a") = some data ∧
    data.players.map (List.map PlayerItem.name) = some ["Serge".toList] ∧
    Storable plainOutside data ∧
    FailsOnlyOnTag plainOutside data := by
  have hbounds : (Schema.gameSchema id (sampleReport "5b4f3c2a")).any (fun data =>
      data.players.map (List.map PlayerItem.name) = some ["Serge".toList] ∧
        WithinBounds plainOutside data) = true := by
    decide +kernel
  obtain ⟨data, hdata, hbounds⟩ := (Option.any_eq_true _ _).mp hbounds
  obtain ⟨hplayers, hbounds⟩ := of_decide_eq_true hbounds
  exact ⟨data, hdata, hplayers, (storedSafely_iff hdata).mpr hbounds⟩

def retried (data : GameData) : Bool :=
  match ((Tasks.storeGameOrRetry plainOutside
    (fun _ => { whois := none, clock := fun _ => 0 }) 1 data 1000).run
      GameIngestion.sampleServer).1 with
  | .ok (.retry (.raised (.dataError _))) => true
  | _ => false

/-- A tag of nine characters is accepted, and every attempt to save the game fails. -/
theorem longTag_retried : ∃ data,
    Schema.gameSchema id (sampleReport "5b4f3c2a1") = some data ∧ retried data = true ∧
    ¬ (Storable plainOutside data ∧
      FailsOnlyOnTag plainOutside data) := by
  have hretried : (Schema.gameSchema id (sampleReport "5b4f3c2a1")).any (fun data =>
      retried data ∧ ¬ FitsColumn 8 data.tag.toList) = true := by
    decide +kernel
  obtain ⟨data, hdata, hretried⟩ := (Option.any_eq_true _ _).mp hretried
  obtain ⟨hretried, htag⟩ := of_decide_eq_true hretried
  refine ⟨data, hdata, hretried, ?_⟩
  rintro ⟨hstorable, _⟩
  exact htag ((hstorable.game 0 0 0).1 data.tag rfl).1

end StoredReports

end Swat4Stats
