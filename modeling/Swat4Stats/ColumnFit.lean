import Swat4Stats.GameIngestion
import Swat4Stats.GameSchema
import Mathlib.Data.Fintype.Defs
import Mathlib.Tactic.Linarith
import Mathlib.Tactic.MkIffOfInductiveProp
import Mathlib.Tactic.NormNum
import Mathlib.Tactic.Positivity

/-!
# What the schema accepts and the columns take

The schema bounds the numbers of a report from below only, and its texts not at all. The columns
have bounds of their own, so a report that was accepted may still be one that cannot be saved.
-/

namespace Swat4Stats

set_option autoImplicit false

/-- What a `CharField` takes of what a text may hold: a lone surrogate cannot be encoded. -/
def FitsText (outside : External) (maxLength : ℕ) (text : Text) : Prop :=
  FitsColumn maxLength text ∧ text.all (fun c => !outside.isSurrogate c) = true

instance (outside : External) (maxLength : ℕ) (text : Text) :
    Decidable (FitsText outside maxLength text) :=
  inferInstanceAs (Decidable (_ ∧ _))

def FitsSmallint (n : ℤ) : Prop := -32768 ≤ n ∧ n ≤ 32767

instance (n : ℤ) : Decidable (FitsSmallint n) := inferInstanceAs (Decidable (_ ∧ _))

/-- The first rational that no longer rounds to a finite double. -/
def doubleLimit : ℚ := 2 ^ 1024 - 2 ^ 970

/-- What a `FloatField` takes. The division that makes the value raises for any other. -/
def FitsDouble (x : ℚ) : Prop := -doubleLimit < x ∧ x < doubleLimit

instance (x : ℚ) : Decidable (FitsDouble x) := inferInstanceAs (Decidable (_ ∧ _))

def Game.smallints (game : Game) : List ℤ :=
  [game.gametypeLegacy, game.mapname, game.outcomeLegacy, game.time, game.playerNum, game.scoreSwat,
    game.scoreSus, game.victSwat, game.victSus, game.rdBombsDefused, game.rdBombsTotal,
    game.coopScore]

def Game.FitsColumns (outside : External) (game : Game) : Prop :=
  (∀ tag ∈ game.tag, FitsText outside 8 tag.toList) ∧ ∀ n ∈ game.smallints, FitsSmallint n

def GameMap.FitsColumns (outside : External) (map : GameMap) : Prop :=
  FitsText outside 255 map.name.toList ∧ FitsText outside 255 map.slug.toList

def Procedure.FitsColumns (outside : External) (row : Procedure) : Prop :=
  FitsText outside 7 row.status.toList ∧ FitsSmallint row.nameLegacy ∧ FitsSmallint row.score

def Objective.FitsColumns (row : Objective) : Prop :=
  FitsSmallint row.nameLegacy ∧ FitsSmallint row.statusLegacy

def Loadout.smallints (row : Loadout) : List ℤ :=
  [row.legacy.primary, row.legacy.primaryAmmo, row.legacy.secondary, row.legacy.secondaryAmmo,
    row.legacy.equipOne, row.legacy.equipTwo, row.legacy.equipThree, row.legacy.equipFour,
    row.legacy.equipFive, row.legacy.breacher, row.legacy.body, row.legacy.head]

def Loadout.FitsColumns (row : Loadout) : Prop := ∀ n ∈ row.smallints, FitsSmallint n

def Player.smallints (row : Player) : List ℤ :=
  row.teamLegacy.toList ++ row.coopStatusLegacy :: Schema.playerFields.map row.stats

def Player.FitsColumns (row : Player) : Prop := ∀ n ∈ row.smallints, FitsSmallint n

def Weapon.smallints (row : Weapon) : List ℤ :=
  [row.nameLegacy, row.time, row.shots, row.hits, row.teamhits, row.kills, row.teamkills]

def Weapon.FitsColumns (row : Weapon) : Prop :=
  (∀ n ∈ row.smallints, FitsSmallint n) ∧ FitsDouble row.distance

def Alias.FitsColumns (outside : External) (row : Alias) : Prop := FitsText outside 64 row.name

def Profile.FitsColumns (outside : External) (row : Profile) : Prop :=
  ∀ name ∈ row.name, FitsText outside 64 name

/-- The columns of a provider take the name and the country. -/
def FitsIsp (outside : External) (name country : Option String) : Prop :=
  (∀ text ∈ name, FitsText outside 255 text.toList) ∧
    ∀ text ∈ country, FitsText outside 2 text.toList

def Isp.FitsColumns (outside : External) (row : Isp) : Prop :=
  FitsIsp outside row.name row.country

/-- Every row that the save of a game may have written fits. -/
@[mk_iff] structure Database.FitsColumns (outside : External) (db : Database) : Prop where
  games : ∀ row ∈ db.games.rows, row.FitsColumns outside
  maps : ∀ row ∈ db.maps.rows, row.FitsColumns outside
  procedures : ∀ row ∈ db.procedures.rows, row.FitsColumns outside
  objectives : ∀ row ∈ db.objectives.rows, row.FitsColumns
  loadouts : ∀ row ∈ db.loadouts.rows, row.FitsColumns
  players : ∀ row ∈ db.players.rows, row.FitsColumns
  weapons : ∀ row ∈ db.weapons.rows, row.FitsColumns
  aliases : ∀ row ∈ db.aliases.rows, row.FitsColumns outside
  profiles : ∀ row ∈ db.profiles.rows, row.FitsColumns outside
  isps : ∀ row ∈ db.isps.rows, row.FitsColumns outside

section Decidable

variable (outside : External)

instance (game : Game) : Decidable (game.FitsColumns outside) :=
  inferInstanceAs (Decidable (_ ∧ _))

instance (map : GameMap) : Decidable (map.FitsColumns outside) :=
  inferInstanceAs (Decidable (_ ∧ _))

instance (row : Procedure) : Decidable (row.FitsColumns outside) :=
  inferInstanceAs (Decidable (_ ∧ _ ∧ _))

instance (row : Objective) : Decidable row.FitsColumns := inferInstanceAs (Decidable (_ ∧ _))

instance (row : Loadout) : Decidable row.FitsColumns := inferInstanceAs (Decidable (∀ _ ∈ _, _))

instance (row : Player) : Decidable row.FitsColumns := inferInstanceAs (Decidable (∀ _ ∈ _, _))

instance (row : Weapon) : Decidable row.FitsColumns := inferInstanceAs (Decidable (_ ∧ _))

instance (row : Alias) : Decidable (row.FitsColumns outside) :=
  inferInstanceAs (Decidable (FitsText _ _ _))

instance (row : Profile) : Decidable (row.FitsColumns outside) :=
  inferInstanceAs (Decidable (∀ _ ∈ _, _))

instance (row : Isp) : Decidable (row.FitsColumns outside) :=
  inferInstanceAs (Decidable ((∀ _ ∈ _, _) ∧ ∀ _ ∈ _, _))

instance (db : Database) : Decidable (db.FitsColumns outside) :=
  decidable_of_iff _ (Database.fitsColumns_iff outside db).symm

end Decidable

section Legacy

theorem fits_team (team : Team) : FitsSmallint team.legacy := by
  cases team <;> decide

theorem fits_gametype (gametype : GameType) : FitsSmallint gametype.legacy := by
  cases gametype <;> decide

theorem fits_coopStatus (status : Option CoopStatus) : FitsSmallint (CoopStatus.legacy status) := by
  obtain _ | status := status
  · decide
  · cases status <;> decide

theorem fits_objectiveStatus (status : CoopObjectiveStatus) : FitsSmallint status.legacy := by
  cases status <;> decide

theorem fits_procedure (procedure : CoopProcedure) : FitsSmallint procedure.legacy := by
  cases procedure <;> decide

theorem fits_outcome (outcome : Option GameOutcome) :
    FitsSmallint (GameOutcome.legacy outcome) := by
  obtain _ | outcome := outcome
  · decide
  · cases outcome <;> decide

theorem fits_equipment (equipment : Equipment) : FitsSmallint equipment.legacy := by
  cases equipment <;> decide

theorem fits_ammo (ammo : Ammo) : FitsSmallint ammo.legacy := by
  cases ammo <;> decide

theorem fits_place {names : List String} (hlength : names.length ≤ 1000) {name : String} {index : ℕ}
    (h : names.idxOf? name = some index) : (index : ℤ) ≤ 1000 := by
  obtain ⟨hlt, _⟩ := List.idxOf?_eq_some_iff.mp h
  omega

theorem fits_mapname (mapname : String) : FitsSmallint (Schema.mapnamesReversed mapname) := by
  unfold Schema.mapnamesReversed
  split
  · rename_i index hindex
    have hplace := fits_place (by decide +kernel) hindex
    constructor
    · omega
    · omega
  · decide

theorem mem_playerFields (field : PlayerField) : field ∈ Schema.playerFields := by
  cases field <;> decide

end Legacy

open GameManager

/-- What is written for a player fits, and the address is one. -/
structure StorablePlayer (outside : External) (gametype : GameType) (item : PlayerItem) : Prop where
  ip : parseIPv4 item.ip ≠ none
  aliasName : ∀ name ∈ forceName outside item.name item.ip, FitsText outside 64 name
  row : ∀ game aliasId loadout ip, (newPlayer game aliasId loadout ip item).FitsColumns
  weapons : gametype.isCoop = false → ∀ player, ∃ rows,
    newWeapons player (item.weapons.getD []) = .ok rows ∧ ∀ row ∈ rows, row.FitsColumns

/-- Every value that the save of the report writes fits its column. -/
structure Storable (outside : External) (data : GameData) : Prop where
  game : ∀ server dateFinished map, (newGame server data dateFinished map).FitsColumns outside
  map : ∀ pk, ({ pk, name := data.mapname, slug := outside.slugify data.mapname } :
    GameMap).FitsColumns outside
  procedures : ∀ item ∈ data.coopProcedures.getD [], ∀ game,
    (newProcedure game item).FitsColumns outside
  objectives : ∀ item ∈ data.coopObjectives.getD [], ∀ game, ∃ row,
    newObjective game item = .ok row ∧ row.FitsColumns
  players : ∀ item ∈ data.players.getD [], StorablePlayer outside data.gametype item

/-- The numbers are not too large, and the quotient in meters is finite. -/
@[mk_iff] structure WeaponWithinBounds (item : WeaponItem) : Prop where
  counts : ∀ n ∈ [item.time, item.shots, item.hits, item.teamhits, item.kills, item.teamkills],
    n ≤ 32767
  distance : (item.distance : ℚ) / 100 < doubleLimit

@[mk_iff] structure PlayerWithinBounds (outside : External) (gametype : GameType)
    (item : PlayerItem) : Prop where
  ip : parseIPv4 item.ip ≠ none
  aliasName : ∀ name ∈ forceName outside item.name item.ip, FitsText outside 64 name
  score : ∀ n ∈ item.stats .score, -32768 ≤ n
  stats : ∀ field, ∀ n ∈ item.stats field, n ≤ 32767
  weapons : gametype.isCoop = false → ∀ weapon ∈ item.weapons.getD [], weapon.name ≠ none →
    WeaponWithinBounds weapon

/-- The bounds that the schema does not check. -/
@[mk_iff] structure WithinBounds (outside : External) (data : GameData) : Prop where
  tag : FitsText outside 8 data.tag.toList
  mapname : FitsText outside 255 data.mapname.toList
  slug : FitsText outside 255 (outside.slugify data.mapname).toList
  counts : ∀ n ∈ [data.time, data.playerNum, data.victSwat, data.victSus, data.bombsDefused,
    data.bombsTotal], n ≤ 32767
  scores : FitsSmallint data.scoreSwat ∧ FitsSmallint data.scoreSus
  coopScore : data.gametype.isCoop = true →
    -32768 ≤ ((data.coopProcedures.getD []).map ProcedureItem.score).sum
  procedures : ∀ item ∈ data.coopProcedures.getD [],
    FitsText outside 7 item.status.toList ∧ FitsSmallint item.score
  players : ∀ item ∈ data.players.getD [], PlayerWithinBounds outside data.gametype item

instance : Fintype PlayerField := ⟨⟨Schema.playerFields, by decide⟩, mem_playerFields⟩

instance (item : WeaponItem) : Decidable (WeaponWithinBounds item) :=
  decidable_of_iff _ (weaponWithinBounds_iff item).symm

instance (outside : External) (gametype : GameType) (item : PlayerItem) :
    Decidable (PlayerWithinBounds outside gametype item) :=
  decidable_of_iff _ (playerWithinBounds_iff outside gametype item).symm

instance (outside : External) (data : GameData) : Decidable (WithinBounds outside data) :=
  decidable_of_iff _ (withinBounds_iff outside data).symm

section Bounds

variable {outside : External} {data : GameData} {gametype : GameType}

theorem fits_of_count {n : ℤ} (hnonneg : 0 ≤ n) (hle : n ≤ 32767) : FitsSmallint n := by
  constructor
  · omega
  · exact hle

/-- A coop score is at most 100, whatever the report says. -/
theorem fits_coopScore (procedures : Option (List ProcedureItem)) :
    FitsSmallint (_calculateCoopScoreForProcedures procedures) ↔
      -32768 ≤ ((procedures.getD []).map ProcedureItem.score).sum := by
  obtain _ | _ | ⟨item, items⟩ := procedures
  · decide
  · decide
  · have hscore : _calculateCoopScoreForProcedures (some (item :: items)) =
        min 100 ((item :: items).map ProcedureItem.score).sum := rfl
    rw [hscore, Option.getD_some]
    generalize ((item :: items).map ProcedureItem.score).sum = total
    constructor
    · rintro ⟨hleast, _⟩
      omega
    · intro hleast
      constructor
      · omega
      · omega

theorem newGame_fits_iff (haccepted : Schema.Accepted data) (server : ServerId)
    (dateFinished : Time) (map : MapId) :
    (newGame server data dateFinished map).FitsColumns outside ↔
      FitsText outside 8 data.tag.toList ∧
      (∀ n ∈ [data.time, data.playerNum, data.victSwat, data.victSus, data.bombsDefused,
        data.bombsTotal], n ≤ 32767) ∧
      (FitsSmallint data.scoreSwat ∧ FitsSmallint data.scoreSus) ∧
      (data.gametype.isCoop = true →
        -32768 ≤ ((data.coopProcedures.getD []).map ProcedureItem.score).sum) := by
  have hcoop : FitsSmallint (newGame server data dateFinished map).coopScore ↔
      (data.gametype.isCoop = true →
        -32768 ≤ ((data.coopProcedures.getD []).map ProcedureItem.score).sum) := by
    simp only [newGame]
    split
    · rename_i hcoop
      exact (fits_coopScore _).trans ⟨fun h _ => h, fun h => h hcoop⟩
    · rename_i hcoop
      exact iff_of_true (by decide) fun h => absurd h hcoop
  rw [Game.FitsColumns, Game.smallints]
  simp only [List.forall_mem_cons, hcoop]
  simp only [newGame, Option.mem_some_iff, forall_eq', List.not_mem_nil, false_imp_iff,
    implies_true, and_true]
  constructor
  · rintro ⟨htag, _, _, _, htime, hplayerNum, hscoreSwat, hscoreSus, hvictSwat, hvictSus,
      hdefused, htotal, hcoop⟩
    exact ⟨htag, ⟨htime.2, hplayerNum.2, hvictSwat.2, hvictSus.2, hdefused.2, htotal.2⟩,
      ⟨hscoreSwat, hscoreSus⟩, hcoop⟩
  · rintro ⟨htag, ⟨htime, hplayerNum, hvictSwat, hvictSus, hdefused, htotal⟩,
      ⟨hscoreSwat, hscoreSus⟩, hcoop⟩
    exact ⟨htag, fits_gametype _, fits_mapname _, fits_outcome _,
      fits_of_count haccepted.time htime, fits_of_count haccepted.playerNum hplayerNum, hscoreSwat,
      hscoreSus, fits_of_count haccepted.victSwat hvictSwat,
      fits_of_count haccepted.victSus hvictSus, fits_of_count haccepted.bombsDefused hdefused,
      fits_of_count haccepted.bombsTotal htotal, hcoop⟩

theorem newProcedure_fits_iff (game : Game) (item : ProcedureItem) :
    (newProcedure game item).FitsColumns outside ↔
      FitsText outside 7 item.status.toList ∧ FitsSmallint item.score := by
  constructor
  · rintro ⟨hstatus, _, hscore⟩
    exact ⟨hstatus, hscore⟩
  · rintro ⟨hstatus, hscore⟩
    exact ⟨hstatus, fits_procedure _, hscore⟩

theorem exists_newObjective (game : Game) {item : ObjectiveItem}
    (h : item.name ∈ Schema.objectiveNames) :
    ∃ row, newObjective game item = .ok row ∧ row.FitsColumns := by
  obtain ⟨index, hindex⟩ : ∃ index, Schema.objectiveNames.idxOf? item.name = some index := by
    rw [← Option.isSome_iff_exists, List.isSome_idxOf?]
    exact h
  have hreversed : Schema.objectivesReversed item.name = .ok (index : ℤ) := by
    rw [Schema.objectivesReversed, hindex]
  refine ⟨⟨0, game.pk, item.name, index, item.status, item.status.legacy⟩, ?_, ?_⟩
  · simp only [newObjective, hreversed, bind, Except.bind, pure, Except.pure]
  have hplace := fits_place (by decide) hindex
  refine ⟨⟨?_, ?_⟩, fits_objectiveStatus _⟩
  · simp only
    omega
  · simp only
    omega

theorem newPlayer_fits_iff (game : Game) (aliasId : AliasId) (loadout : LoadoutId) (ip : IPv4)
    (item : PlayerItem) : (newPlayer game aliasId loadout ip item).FitsColumns ↔
      ∀ field, ∀ n ∈ item.stats field, FitsSmallint n := by
  rw [Player.FitsColumns, Player.smallints]
  simp only [newPlayer, Option.toList_some, List.cons_append, List.nil_append,
    List.forall_mem_cons, List.forall_mem_map]
  constructor
  · rintro ⟨_, _, hstats⟩ field n hn
    have hfield := hstats field (mem_playerFields field)
    rwa [Option.mem_def.mp hn, Option.getD_some] at hfield
  · intro hstats
    refine ⟨fits_team _, ?_, fun field _ => ?_⟩
    · cases item.coopStatus with
      | none => decide
      | some status => exact fits_coopStatus status
    · cases hn : item.stats field with
      | none => decide
      | some n => exact hstats field n hn

theorem fits_distance {distance : ℤ} (hnonneg : 0 ≤ distance) :
    FitsDouble ((distance : ℚ) / 100) ↔ (distance : ℚ) / 100 < doubleLimit := by
  have hcast : (0 : ℚ) ≤ distance := by exact_mod_cast hnonneg
  have hquotient : (0 : ℚ) ≤ distance / 100 := by positivity
  have hlimit : (0 : ℚ) < doubleLimit :=
    sub_pos.mpr (pow_lt_pow_right₀ (by norm_num) (by norm_num))
  constructor
  · rintro ⟨_, hlt⟩
    exact hlt
  · intro hlt
    constructor
    · linarith
    · exact hlt

theorem newWeapon_eq {player : PlayerId} {item : WeaponItem} {name : Equipment}
    (hname : name ≠ .none) : newWeapon player item name = .ok
      ⟨0, player, name, name.legacy, item.time, item.shots, item.hits, item.teamhits, item.kills,
        item.teamkills, item.distance / 100⟩ := by
  have hreversed : Schema.weaponReversed name = .ok name.legacy := by
    cases name with
    | none => exact absurd rfl hname
    | _ => rfl
  simp only [newWeapon, hreversed, bind, Except.bind, pure, Except.pure]

theorem newWeapon_fits_iff {player : PlayerId} {item : WeaponItem} {name : Equipment} {row : Weapon}
    (haccepted : Schema.AcceptedWeapon item) (hname : item.name = some name)
    (hrow : newWeapon player item name = .ok row) :
    row.FitsColumns ↔ WeaponWithinBounds item := by
  have hne : name ≠ .none := fun hnone => haccepted.name (hnone ▸ hname)
  rw [newWeapon_eq hne] at hrow
  obtain rfl := Except.ok.inj hrow
  rw [Weapon.FitsColumns, Weapon.smallints]
  simp only [List.forall_mem_cons, List.not_mem_nil, false_imp_iff, implies_true, and_true]
  rw [fits_distance haccepted.distance]
  constructor
  · rintro ⟨⟨_, htime, hshots, hhits, hteamhits, hkills, hteamkills⟩, hdistance⟩
    refine ⟨?_, hdistance⟩
    simp only [List.forall_mem_cons, List.not_mem_nil, false_imp_iff, implies_true, and_true]
    exact ⟨htime.2, hshots.2, hhits.2, hteamhits.2, hkills.2, hteamkills.2⟩
  · rintro ⟨hcounts, hdistance⟩
    simp only [List.forall_mem_cons, List.not_mem_nil, false_imp_iff, implies_true, and_true]
      at hcounts
    obtain ⟨htime, hshots, hhits, hteamhits, hkills, hteamkills⟩ := hcounts
    exact ⟨⟨fits_equipment _, fits_of_count haccepted.time htime,
      fits_of_count haccepted.shots hshots, fits_of_count haccepted.hits hhits,
      fits_of_count haccepted.teamhits hteamhits, fits_of_count haccepted.kills hkills,
      fits_of_count haccepted.teamkills hteamkills⟩, hdistance⟩

theorem newWeapons_cons_of_none {player : PlayerId} {item : WeaponItem} {items : List WeaponItem}
    (hname : item.name = none) :
    newWeapons player (item :: items) = newWeapons player items := by
  simp only [newWeapons, List.filterMap_cons, hname, Option.map_none]

theorem newWeapons_cons_of_some {player : PlayerId} {item : WeaponItem} {items : List WeaponItem}
    {name : Equipment} {row : Weapon} (hname : item.name = some name)
    (hrow : newWeapon player item name = .ok row) :
    newWeapons player (item :: items) = (newWeapons player items).map (row :: ·) := by
  simp only [newWeapons, List.filterMap_cons, hname, Option.map_some, List.mapM_cons, hrow, bind,
    Except.bind, pure, Except.pure]
  rfl

theorem newWeapons_fit_iff {player : PlayerId} {items : List WeaponItem}
    (haccepted : ∀ item ∈ items, Schema.AcceptedWeapon item) :
    (∃ rows, newWeapons player items = .ok rows ∧ ∀ row ∈ rows, row.FitsColumns) ↔
      ∀ item ∈ items, item.name ≠ none → WeaponWithinBounds item := by
  induction items with
  | nil => exact iff_of_true ⟨[], rfl, by simp⟩ (by simp)
  | cons item items ih =>
    obtain ⟨hitem, hitems⟩ := List.forall_mem_cons.mp haccepted
    rw [List.forall_mem_cons, ← ih hitems]
    cases hname : item.name with
    | none =>
      rw [newWeapons_cons_of_none hname]
      exact ⟨fun h => ⟨fun hne => absurd rfl hne, h⟩, fun h => h.2⟩
    | some name =>
      have hne : name ≠ .none := fun hnone => hitem.name (hnone ▸ hname)
      have hrow : newWeapon player item name = .ok _ := newWeapon_eq hne
      have hbounds := newWeapon_fits_iff hitem hname hrow
      rw [newWeapons_cons_of_some hname hrow]
      constructor
      · rintro ⟨rows, hrows, hfits⟩
        cases hrest : newWeapons player items with
        | error e =>
          rw [hrest] at hrows
          cases hrows
        | ok rest =>
          rw [hrest] at hrows
          obtain rfl := Except.ok.inj hrows
          obtain ⟨hfirst, hfits⟩ := List.forall_mem_cons.mp hfits
          exact ⟨fun _ => hbounds.mp hfirst, rest, rfl, hfits⟩
      · rintro ⟨hfirst, rest, hrest, hfits⟩
        rw [hrest]
        exact ⟨_, rfl, List.forall_mem_cons.mpr ⟨hbounds.mpr (hfirst (by simp)), hfits⟩⟩

theorem forall_getD {α : Type} {items : Option (List α)} {P : α → Prop}
    (h : ∀ xs ∈ items, ∀ x ∈ xs, P x) : ∀ x ∈ items.getD [], P x := by
  cases items with
  | none => simp
  | some xs => exact h xs rfl

theorem storablePlayer_iff (game : Game) {item : PlayerItem}
    (haccepted : Schema.AcceptedPlayer item) :
    StorablePlayer outside gametype item ↔ PlayerWithinBounds outside gametype item := by
  have hweapon := forall_getD haccepted.weapons
  have hstats : (∀ field, ∀ n ∈ item.stats field, FitsSmallint n) ↔
      (∀ n ∈ item.stats .score, -32768 ≤ n) ∧ ∀ field, ∀ n ∈ item.stats field, n ≤ 32767 := by
    constructor
    · intro hfits
      exact ⟨fun n hn => (hfits .score n hn).1, fun field n hn => (hfits field n hn).2⟩
    · rintro ⟨hscore, hmost⟩ field n hn
      obtain rfl | hfield := Decidable.em (field = .score)
      · exact ⟨hscore n hn, hmost .score n hn⟩
      · exact fits_of_count (haccepted.stats field hfield n hn) (hmost field n hn)
  constructor
  · rintro ⟨hip, hname, hrow, hweapons⟩
    obtain ⟨hscore, hmost⟩ := hstats.mp ((newPlayer_fits_iff game 0 0 0 item).mp (hrow _ _ _ _))
    exact ⟨hip, hname, hscore, hmost, fun hcoop =>
      (newWeapons_fit_iff hweapon).mp (hweapons hcoop 0)⟩
  · rintro ⟨hip, hname, hscore, hmost, hweapons⟩
    refine ⟨hip, hname, fun game aliasId loadout ip => ?_, fun hcoop player => ?_⟩
    · exact (newPlayer_fits_iff game aliasId loadout ip item).mpr (hstats.mpr ⟨hscore, hmost⟩)
    · exact (newWeapons_fit_iff hweapon).mpr (hweapons hcoop)

/-- Of an accepted report, what the save writes fits exactly when the bounds hold that the schema
leaves open. -/
theorem storable_iff (haccepted : Schema.Accepted data) :
    Storable outside data ↔ WithinBounds outside data := by
  have hplayer : ∀ item ∈ data.players.getD [],
      (StorablePlayer outside data.gametype item ↔
        PlayerWithinBounds outside data.gametype item) := fun item hitem =>
    storablePlayer_iff (newGame 0 data 0 0) (forall_getD haccepted.players item hitem)
  constructor
  · rintro ⟨hgame, hmap, hprocedures, _, hplayers⟩
    obtain ⟨htag, hcounts, hscores, hcoop⟩ := (newGame_fits_iff haccepted 0 0 0).mp (hgame 0 0 0)
    exact ⟨htag, (hmap 0).1, (hmap 0).2, hcounts, hscores, hcoop,
      fun item hitem => (newProcedure_fits_iff (newGame 0 data 0 0) item).mp
        (hprocedures item hitem _),
      fun item hitem => (hplayer item hitem).mp (hplayers item hitem)⟩
  · rintro ⟨htag, hmapname, hslug, hcounts, hscores, hcoop, hprocedures, hplayers⟩
    refine ⟨fun server dateFinished map => ?_, fun _ => ⟨hmapname, hslug⟩, ?_, ?_, ?_⟩
    · exact (newGame_fits_iff haccepted server dateFinished map).mpr
        ⟨htag, hcounts, hscores, hcoop⟩
    · intro item hitem game
      exact (newProcedure_fits_iff game item).mpr (hprocedures item hitem)
    · intro item hitem game
      exact exists_newObjective game (forall_getD haccepted.objectives item hitem)
    · intro item hitem
      exact (hplayer item hitem).mpr (hplayers item hitem)

end Bounds

end Swat4Stats
