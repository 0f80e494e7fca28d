import Swat4Stats.GameIngestion
import Swat4Stats.Library.OrderedDict

/-!
# Legacy columns and enums

A saved game has its enumerations twice: as the integer of the legacy column and as the name in
the enum column. `convert_enums` fills the empty cells of the enum columns from the integers, one
statement for each code. The reports are saved with integers that stand for the very names, so the
command restores whatever cells are empty, also when it is cut off and run again.
-/

namespace Swat4Stats

set_option autoImplicit false

open GameIngestion GameManager Transition

/-- A legacy column and its enum column, in one row. -/
structure Cell (E : Type) where
  legacy : Option ℤ
  enum : Option E
  deriving DecidableEq, Repr

namespace LegacyColumns

structure GameRow where
  pk : GameId
  gametype : Cell GameType
  outcome : Cell GameOutcome
  deriving DecidableEq, Repr

structure PlayerRow where
  pk : PlayerId
  game : GameId
  coopStatus : Cell CoopStatus
  team : Cell Team
  deriving DecidableEq, Repr

structure WeaponRow where
  pk : ℕ
  name : Cell Equipment
  deriving DecidableEq, Repr

structure ObjectiveRow where
  pk : ℕ
  name : Cell String
  status : Cell CoopObjectiveStatus
  deriving DecidableEq, Repr

structure ProcedureRow where
  pk : ℕ
  name : Cell CoopProcedure
  deriving DecidableEq, Repr

structure EnumTables where
  games : List GameRow
  players : List PlayerRow
  weapons : List WeaponRow
  objectives : List ObjectiveRow
  procedures : List ProcedureRow
  deriving DecidableEq, Repr

/-- The cells of the stored rows. -/
def columns (t : GameTables) : EnumTables where
  games := t.games.rows.map fun row => {
    pk := row.pk
    gametype := ⟨some row.gametypeLegacy, some row.gametype⟩
    outcome := ⟨some row.outcomeLegacy, row.outcome⟩ }
  players := t.players.rows.map fun row => {
    pk := row.pk
    game := row.game
    coopStatus := ⟨some row.coopStatusLegacy, row.coopStatus⟩
    team := ⟨row.teamLegacy, row.team⟩ }
  weapons := t.weapons.rows.map fun row => ⟨row.pk, ⟨some row.nameLegacy, some row.name⟩⟩
  objectives := t.objectives.rows.map fun row => {
    pk := row.pk
    name := ⟨some row.nameLegacy, some row.name⟩
    status := ⟨some row.statusLegacy, some row.status⟩ }
  procedures := t.procedures.rows.map fun row => ⟨row.pk, ⟨some row.nameLegacy, some row.name⟩⟩

def gametypeMapping : OrderedDict ℤ GameType :=
  [(0, .barricadedSuspects), (1, .vipEscort), (2, .rapidDeployment), (3, .coOp),
    (4, .smashAndGrab), (5, .coOpQmm)]

def outcomeMapping : OrderedDict ℤ GameOutcome :=
  [(1, .swatBs), (2, .susBs), (3, .swatRd), (4, .susRd), (5, .tie), (6, .swatVipEscape),
    (7, .susVipGoodKill), (8, .swatVipBadKill), (9, .susVipBadKill), (10, .coopCompleted),
    (11, .coopFailed), (12, .swatSg), (13, .susSg)]

def teamMapping : OrderedDict ℤ Team :=
  [(0, .swat), (1, .suspects)]

def coopStatusMapping : OrderedDict ℤ CoopStatus :=
  [(1, .ready), (2, .healthy), (3, .injured), (4, .incapacitated)]

def equipmentMapping : OrderedDict ℤ Equipment :=
  [(0, .none), (1, .m4Super90), (2, .novaPump), (3, .shotgun), (4, .lessLethalShotgun),
    (5, .pepperBall), (6, .coltM4a1Carbine), (7, .ak47Machinegun), (8, .gb36sAssaultRifle),
    (9, .galSubMachinegun), (10, ._9mmSmg), (11, .suppressed9mmSmg), (12, ._45Smg),
    (13, .m1911Handgun), (14, ._9mmHandgun), (15, .coltPython), (16, .taserStunGun),
    (17, .vipColtM1911Handgun), (18, .csGasVip), (19, .lightArmor), (20, .heavyArmor),
    (21, .gasMask), (22, .helmet), (23, .flashbang), (24, .csGas), (25, .stinger),
    (26, .pepperSpray), (27, .optiwand), (28, .toolkit), (29, .doorWedge), (30, .c2X3),
    (31, .theDetonator), (32, .zipCuffs), (33, .iamcuffed), (34, .coltAccurizedRifle),
    (35, ._40mmGrenadeLauncher), (36, ._556mmLightMachineGun), (37, ._57x28mmSubmachineGun),
    (38, .mark19SemiAutomaticPistol), (39, ._9mmMachinePistol), (40, .cobraStunGun),
    (41, .ammoPouch), (42, .noArmor), (43, .nightVisionGoggles), (44, .stingerGrenade),
    (45, .csGasGrenade), (46, .flashbangGrenade), (47, .batonGrenade)]

def objectiveMapping : OrderedDict ℤ String :=
  [(0, "Rendezvous with Jennings"), (1, "Avoid civilian injuries"),
    (2, "Avoid officer injuries"), (3, "Avoid officer casualties"),
    (4, "Avoid suspect casualties"), (5, "Avoid injuries to yourself"),
    (6, "Debrief before the timer expires"), (7, "Find and deactivate the bombs"),
    (8, "Find and disarm the bombs!"), (9, "Investigate the laundromat"),
    (10, "Neutralize Alice Jenkins"), (11, "Bring order to chaos"),
    (12, "Neutralize Javier Arias"), (13, "Neutralize Andrew Taronne"),
    (14, "Neutralize Anton Georgiev"), (15, "Neutralize Simon Gowan"),
    (16, "Neutralize Lian Niu"), (17, "Neutralize Alex Jimenez"),
    (18, "Neutralize Lawrence Fairfax"), (19, "Neutralize Kiril Stetchkov"),
    (20, "Neutralize Hadeon Koshka"), (21, "Neutralize Allen Kruse"),
    (22, "Neutralize Andrew Norman"), (23, "Neutralize Jean Trouffant"),
    (24, "Neutralize Todor Stetchkov"), (25, "Rescue Lawrence Adams"),
    (26, "Rescue all of the civilians"), (27, "Rescue Gary Altman"), (28, "Arrest Louie Baccus"),
    (29, "Rescue James Betincourt"), (30, "Rescue Oscar Bogard"), (31, "Rescue Warren Rooney"),
    (32, "Rescue Hyun-Jun Park"), (33, "Rescue Willis Fischer"), (34, "Rescue Melinda Kline"),
    (35, "Rescue Lionel Macarthur"), (36, "Rescue Heidi Rosenstein"),
    (37, "Rescue Dr. Theodore Sturgeon"), (38, "Rescue Kim Dong Yin"),
    (39, "Rescue Detective Walsh"), (40, "Locate Officer Wilkins"), (41, "Rescue Rita Winston"),
    (42, "Secure the briefcase"), (43, "Secure the MAC-10")]

def objectiveStatusMapping : OrderedDict ℤ CoopObjectiveStatus :=
  [(0, .inProgress), (1, .completed), (2, .failed)]

def procedureMapping : OrderedDict ℤ CoopProcedure :=
  [(0, .suspectsIncapacitated), (1, .suspectsArrested), (2, .missionCompleted),
    (3, .failedToReportDownedOfficer), (4, .suspectsNeutralized), (5, .noCiviliansInjured),
    (6, .incapacitatedHostage), (7, .killedHostage), (8, .incapacitatedFellowOfficer),
    (9, .injuredFellowOfficer), (10, .noOfficersDown), (11, .noSuspectsNeutralized),
    (12, .unauthorizedUseOfDeadlyForce), (13, .unauthorizedUseOfForce), (14, .playerUninjured),
    (15, .failedToPreventDestructionOfEvidence), (16, .failedToApprehendFleeingSuspect),
    (17, .reportStatusToToc), (18, .allEvidenceSecured)]

/-- How a part of a value is read and written: a table of the database, a column of a row. -/
structure Field (S A : Type) where
  get : S → A
  set : S → A → S

/-- `SET enum = value WHERE enum IS NULL AND column = id` -/
def convertCell {E : Type} (cell : Cell E) (entry : ℤ × E) : Cell E :=
  if cell.enum.isNone ∧ cell.legacy = some entry.1 then { cell with enum := some entry.2 } else cell

abbrev Statement := EnumTables → EnumTables

/-- One statement for each entry of the mapping. -/
def convertColumn {R E : Type} (table : Field EnumTables (List R)) (column : Field R (Cell E))
    (mapping : OrderedDict ℤ E) : List Statement :=
  mapping.map fun entry t => table.set t ((table.get t).map fun row =>
    column.set row (convertCell (column.get row) entry))

def trackerGame : Field EnumTables (List GameRow) where
  get := EnumTables.games
  set t rows := { t with games := rows }

def trackerPlayer : Field EnumTables (List PlayerRow) where
  get := EnumTables.players
  set t rows := { t with players := rows }

def trackerWeapon : Field EnumTables (List WeaponRow) where
  get := EnumTables.weapons
  set t rows := { t with weapons := rows }

def trackerObjective : Field EnumTables (List ObjectiveRow) where
  get := EnumTables.objectives
  set t rows := { t with objectives := rows }

def trackerProcedure : Field EnumTables (List ProcedureRow) where
  get := EnumTables.procedures
  set t rows := { t with procedures := rows }

/-- Players of games of that type have no co-op status. -/
def resetCoopStatus (gametype : GameType) : Statement := fun t => { t with
  players := t.players.map fun player =>
    if t.games.any fun game => game.gametype.enum = some gametype ∧ game.pk = player.game then
      { player with coopStatus := { player.coopStatus with enum := none } }
    else
      player }

def gameStatements : List Statement :=
  convertColumn trackerGame ⟨GameRow.gametype, fun row cell => { row with gametype := cell }⟩
    gametypeMapping ++
  convertColumn trackerGame ⟨GameRow.outcome, fun row cell => { row with outcome := cell }⟩
    outcomeMapping

def resetStatements : List Statement :=
  [GameType.barricadedSuspects, .vipEscort, .rapidDeployment, .smashAndGrab].map resetCoopStatus

def playerStatements : List Statement :=
  convertColumn trackerPlayer
    ⟨PlayerRow.coopStatus, fun row cell => { row with coopStatus := cell }⟩ coopStatusMapping ++
  convertColumn trackerPlayer ⟨PlayerRow.team, fun row cell => { row with team := cell }⟩
    teamMapping

def weaponStatements : List Statement :=
  convertColumn trackerWeapon ⟨WeaponRow.name, fun row cell => { row with name := cell }⟩
    equipmentMapping

def objectiveStatements : List Statement :=
  convertColumn trackerObjective ⟨ObjectiveRow.name, fun row cell => { row with name := cell }⟩
    objectiveMapping ++
  convertColumn trackerObjective ⟨ObjectiveRow.status, fun row cell => { row with status := cell }⟩
    objectiveStatusMapping

def procedureStatements : List Statement :=
  convertColumn trackerProcedure ⟨ProcedureRow.name, fun row cell => { row with name := cell }⟩
    procedureMapping

/-- The statements of the command, without those for the teams of profiles. -/
def statements : List Statement :=
  gameStatements ++ resetStatements ++ playerStatements ++ weaponStatements ++
    objectiveStatements ++ procedureStatements

def execute (statements : List Statement) (t : EnumTables) : EnumTables :=
  statements.foldl (fun t statement => statement t) t

/-- The enum is the name that the integer stands for, or there is none for either. -/
def Decodes {E : Type} (mapping : OrderedDict ℤ E) (cell : Cell E) : Prop :=
  cell.enum = cell.legacy.bind (OrderedDict.get? mapping)

/-- The cell, or the cell without its enum. -/
def Blanks {E : Type} (cell' cell : Cell E) : Prop :=
  cell'.legacy = cell.legacy ∧ (cell'.enum = none ∨ cell'.enum = cell.enum)

section Cells

variable {E : Type} {mapping : OrderedDict ℤ E} {cell cell' : Cell E}

theorem Blanks.refl (cell : Cell E) : Blanks cell cell := ⟨rfl, .inr rfl⟩

theorem Blanks.convertCell (h : Blanks cell' cell) (hcell : Decodes mapping cell)
    (hnodup : (OrderedDict.keys mapping).Nodup) {entry : ℤ × E} (hentry : entry ∈ mapping) :
    Blanks (LegacyColumns.convertCell cell' entry) cell := by
  unfold LegacyColumns.convertCell
  split
  · rename_i hmatch
    refine ⟨h.1, .inr ?_⟩
    rw [hcell, ← h.1, hmatch.2, Option.bind_some, OrderedDict.get?_of_mem hnodup hentry]
  · exact h

theorem foldl_convertCell (cell : Cell E) :
    mapping.foldl LegacyColumns.convertCell cell =
      { cell with enum := cell.enum.or (cell.legacy.bind (OrderedDict.get? mapping)) } := by
  induction mapping generalizing cell with
  | nil =>
    obtain ⟨legacy, enum⟩ := cell
    cases legacy <;> simp [OrderedDict.get?]
  | cons entry mapping ih =>
    obtain ⟨legacy, enum⟩ := cell
    obtain ⟨id, value⟩ := entry
    rw [List.foldl_cons, ih]
    cases enum with
    | some name => simp [LegacyColumns.convertCell]
    | none =>
      cases legacy with
      | none => simp [LegacyColumns.convertCell]
      | some n =>
        obtain rfl | hne := eq_or_ne n id
        · simp [LegacyColumns.convertCell]
        · simp [LegacyColumns.convertCell, OrderedDict.get?, hne, hne.symm]

theorem foldl_convertCell_of_blanks (h : Blanks cell' cell) (hcell : Decodes mapping cell) :
    mapping.foldl LegacyColumns.convertCell cell' = cell := by
  obtain ⟨legacy, enum⟩ := cell
  obtain ⟨legacy', enum'⟩ := cell'
  obtain ⟨rfl, henum⟩ : legacy' = legacy ∧ (enum' = none ∨ enum' = enum) := h
  have hdecodes : enum = legacy'.bind (OrderedDict.get? mapping) := hcell
  rw [foldl_convertCell]
  cases henum with
  | inl hnone => simp [hnone, ← hdecodes]
  | inr hsame => cases enum <;> simp [hsame, ← hdecodes]

end Cells

section Rows

structure Field.Lawful {S A : Type} (field : Field S A) : Prop where
  get_set : ∀ s a, field.get (field.set s a) = a
  set_get : ∀ s, field.set s (field.get s) = s
  set_set : ∀ s a b, field.set (field.set s a) b = field.set s b

variable {R E : Type} {table : Field EnumTables (List R)} {column : Field R (Cell E)}

theorem execute_append (xs ys : List Statement) (t : EnumTables) :
    execute (xs ++ ys) t = execute ys (execute xs t) := by
  simp [execute]

/-- The statements for one column convert its cells one by one. -/
theorem execute_convertColumn (htable : table.Lawful) (hcolumn : column.Lawful)
    (mapping : OrderedDict ℤ E) (t : EnumTables) :
    execute (convertColumn table column mapping) t = table.set t ((table.get t).map fun row =>
      column.set row (mapping.foldl LegacyColumns.convertCell (column.get row))) := by
  induction mapping generalizing t with
  | nil => simp [convertColumn, execute, hcolumn.set_get, htable.set_get]
  | cons entry mapping ih =>
    rw [convertColumn, List.map_cons, execute, List.foldl_cons]
    apply (ih _).trans
    simp only [htable.get_set, htable.set_set, List.map_map, Function.comp_def, hcolumn.get_set,
      hcolumn.set_set, List.foldl_cons]

theorem forall₂_imp_of_mem_right {α β : Type} {S T : α → β → Prop} {as : List α} {bs : List β}
    (h : List.Forall₂ S as bs) (himp : ∀ a, ∀ b ∈ bs, S a b → T a b) : List.Forall₂ T as bs := by
  induction h with
  | nil => exact .nil
  | cons hab _ ih =>
    exact .cons (himp _ _ List.mem_cons_self hab)
      (ih fun a b hb => himp a b (List.mem_cons_of_mem _ hb))

theorem forall₂_map_of_mem {S : R → R → Prop} {f : R → R} {rows' rows : List R}
    (h : List.Forall₂ S rows' rows) (hf : ∀ row', ∀ row ∈ rows, S row' row → S (f row') row) :
    List.Forall₂ S (rows'.map f) rows :=
  List.forall₂_map_left_iff.mpr (forall₂_imp_of_mem_right h hf)

theorem map_eq_of_forall₂ {S : R → R → Prop} {f : R → R} {rows' rows : List R}
    (h : List.Forall₂ S rows' rows) (hf : ∀ row', ∀ row ∈ rows, S row' row → f row' = row) :
    rows'.map f = rows := by
  rw [← List.forall₂_eq_eq_eq, List.forall₂_map_left_iff]
  exact forall₂_imp_of_mem_right h hf

end Rows

/-- Every integer stands for the name beside it. -/
structure Legible (t : EnumTables) : Prop where
  gametype : ∀ row ∈ t.games, Decodes gametypeMapping row.gametype
  outcome : ∀ row ∈ t.games, Decodes outcomeMapping row.outcome
  coopStatus : ∀ row ∈ t.players, Decodes coopStatusMapping row.coopStatus
  team : ∀ row ∈ t.players, Decodes teamMapping row.team
  weapon : ∀ row ∈ t.weapons, Decodes equipmentMapping row.name
  objective : ∀ row ∈ t.objectives, Decodes objectiveMapping row.name
  objectiveStatus : ∀ row ∈ t.objectives, Decodes objectiveStatusMapping row.status
  procedure : ∀ row ∈ t.procedures, Decodes procedureMapping row.name

def GameRow.PartOf (row' row : GameRow) : Prop :=
  row'.pk = row.pk ∧ Blanks row'.gametype row.gametype ∧ Blanks row'.outcome row.outcome

def PlayerRow.PartOf (row' row : PlayerRow) : Prop :=
  row'.pk = row.pk ∧ row'.game = row.game ∧ Blanks row'.coopStatus row.coopStatus ∧
    Blanks row'.team row.team

def WeaponRow.PartOf (row' row : WeaponRow) : Prop := row'.pk = row.pk ∧ Blanks row'.name row.name

def ObjectiveRow.PartOf (row' row : ObjectiveRow) : Prop :=
  row'.pk = row.pk ∧ Blanks row'.name row.name ∧ Blanks row'.status row.status

def ProcedureRow.PartOf (row' row : ProcedureRow) : Prop :=
  row'.pk = row.pk ∧ Blanks row'.name row.name

/-- The same rows, where any enum cells may be empty. -/
structure EnumTables.PartOf (t' t : EnumTables) : Prop where
  games : List.Forall₂ GameRow.PartOf t'.games t.games
  players : List.Forall₂ PlayerRow.PartOf t'.players t.players
  weapons : List.Forall₂ WeaponRow.PartOf t'.weapons t.weapons
  objectives : List.Forall₂ ObjectiveRow.PartOf t'.objectives t.objectives
  procedures : List.Forall₂ ProcedureRow.PartOf t'.procedures t.procedures

section Tables

variable {t t' : EnumTables}

theorem EnumTables.PartOf.resetCoopStatus (h : t'.PartOf t) (gametype : GameType) :
    (LegacyColumns.resetCoopStatus gametype t').PartOf t := by
  refine { h with players := List.forall₂_map_left_iff.mpr (h.players.imp fun row' row hrow => ?_) }
  split
  · exact ⟨hrow.1, hrow.2.1, ⟨hrow.2.2.1.1, .inl rfl⟩, hrow.2.2.2⟩
  · exact hrow

/-- Each statement leaves every cell empty or right. -/
theorem EnumTables.PartOf.statement (ht : Legible t) (h : t'.PartOf t) {statement : Statement}
    (hstatement : statement ∈ statements) : (statement t').PartOf t := by
  simp only [statements, gameStatements, resetStatements, playerStatements, weaponStatements,
    objectiveStatements, procedureStatements, List.mem_append, convertColumn, List.mem_map]
    at hstatement
  rcases hstatement with (((((⟨entry, hentry, rfl⟩ | ⟨entry, hentry, rfl⟩) |
    ⟨gametype, -, rfl⟩) | ⟨entry, hentry, rfl⟩ | ⟨entry, hentry, rfl⟩) | ⟨entry, hentry, rfl⟩) |
    ⟨entry, hentry, rfl⟩ | ⟨entry, hentry, rfl⟩) | ⟨entry, hentry, rfl⟩
  · exact { h with games := forall₂_map_of_mem h.games fun _ row hmem hrow =>
      ⟨hrow.1, hrow.2.1.convertCell (ht.gametype row hmem) (by decide) hentry, hrow.2.2⟩ }
  · exact { h with games := forall₂_map_of_mem h.games fun _ row hmem hrow =>
      ⟨hrow.1, hrow.2.1, hrow.2.2.convertCell (ht.outcome row hmem) (by decide) hentry⟩ }
  · exact h.resetCoopStatus gametype
  · exact { h with players := forall₂_map_of_mem h.players fun _ row hmem hrow =>
      ⟨hrow.1, hrow.2.1, hrow.2.2.1.convertCell (ht.coopStatus row hmem) (by decide) hentry,
        hrow.2.2.2⟩ }
  · exact { h with players := forall₂_map_of_mem h.players fun _ row hmem hrow =>
      ⟨hrow.1, hrow.2.1, hrow.2.2.1,
        hrow.2.2.2.convertCell (ht.team row hmem) (by decide) hentry⟩ }
  · exact { h with weapons := forall₂_map_of_mem h.weapons fun _ row hmem hrow =>
      ⟨hrow.1, hrow.2.convertCell (ht.weapon row hmem) (by decide) hentry⟩ }
  · exact { h with objectives := forall₂_map_of_mem h.objectives fun _ row hmem hrow =>
      ⟨hrow.1, hrow.2.1.convertCell (ht.objective row hmem) (by decide) hentry, hrow.2.2⟩ }
  · exact { h with objectives := forall₂_map_of_mem h.objectives fun _ row hmem hrow =>
      ⟨hrow.1, hrow.2.1,
        hrow.2.2.convertCell (ht.objectiveStatus row hmem) (by decide) hentry⟩ }
  · exact { h with procedures := forall₂_map_of_mem h.procedures fun _ row hmem hrow =>
      ⟨hrow.1, hrow.2.convertCell (ht.procedure row hmem) (by decide) hentry⟩ }

theorem EnumTables.PartOf.execute (ht : Legible t) (h : t'.PartOf t) {run : List Statement}
    (hrun : ∀ statement ∈ run, statement ∈ statements) :
    (LegacyColumns.execute run t').PartOf t := by
  induction run generalizing t' with
  | nil => exact h
  | cons statement run ih =>
    exact ih (h.statement ht (hrun statement List.mem_cons_self))
      fun other hother => hrun other (List.mem_cons_of_mem _ hother)

theorem exists_execute_resets (h : t'.PartOf t) (gametypes : List GameType) :
    ∃ players, LegacyColumns.execute (gametypes.map LegacyColumns.resetCoopStatus) t' =
      { t' with players := players } ∧ List.Forall₂ PlayerRow.PartOf players t.players := by
  induction gametypes generalizing t' with
  | nil => exact ⟨t'.players, rfl, h.players⟩
  | cons gametype gametypes ih =>
    obtain ⟨players, heq, hplayers⟩ := ih (h.resetCoopStatus gametype)
    exact ⟨players, heq, hplayers⟩

theorem lawful_trackerGame : trackerGame.Lawful := ⟨fun _ _ => rfl, fun _ => rfl, fun _ _ _ => rfl⟩

theorem lawful_trackerPlayer : trackerPlayer.Lawful :=
  ⟨fun _ _ => rfl, fun _ => rfl, fun _ _ _ => rfl⟩

theorem lawful_trackerWeapon : trackerWeapon.Lawful :=
  ⟨fun _ _ => rfl, fun _ => rfl, fun _ _ _ => rfl⟩

theorem lawful_trackerObjective : trackerObjective.Lawful :=
  ⟨fun _ _ => rfl, fun _ => rfl, fun _ _ _ => rfl⟩

theorem lawful_trackerProcedure : trackerProcedure.Lawful :=
  ⟨fun _ _ => rfl, fun _ => rfl, fun _ _ _ => rfl⟩

/-- The statements for the columns of a table, one column after the other. -/
def convertGames (row : GameRow) : GameRow :=
  { row with
    gametype := gametypeMapping.foldl convertCell row.gametype
    outcome := outcomeMapping.foldl convertCell row.outcome }

def convertPlayers (row : PlayerRow) : PlayerRow :=
  { row with
    coopStatus := coopStatusMapping.foldl convertCell row.coopStatus
    team := teamMapping.foldl convertCell row.team }

def convertWeapons (row : WeaponRow) : WeaponRow :=
  { row with name := equipmentMapping.foldl convertCell row.name }

def convertObjectives (row : ObjectiveRow) : ObjectiveRow :=
  { row with
    name := objectiveMapping.foldl convertCell row.name
    status := objectiveStatusMapping.foldl convertCell row.status }

def convertProcedures (row : ProcedureRow) : ProcedureRow :=
  { row with name := procedureMapping.foldl convertCell row.name }

theorem map_convertGames (ht : Legible t) {rows : List GameRow}
    (h : List.Forall₂ GameRow.PartOf rows t.games) : rows.map convertGames = t.games := by
  refine map_eq_of_forall₂ h fun row' row hmem ⟨hpk, hgametype, houtcome⟩ => ?_
  rw [convertGames, foldl_convertCell_of_blanks hgametype (ht.gametype row hmem),
    foldl_convertCell_of_blanks houtcome (ht.outcome row hmem), hpk]

theorem map_convertPlayers (ht : Legible t) {rows : List PlayerRow}
    (h : List.Forall₂ PlayerRow.PartOf rows t.players) : rows.map convertPlayers = t.players := by
  refine map_eq_of_forall₂ h fun row' row hmem ⟨hpk, hgame, hstatus, hteam⟩ => ?_
  rw [convertPlayers, foldl_convertCell_of_blanks hstatus (ht.coopStatus row hmem),
    foldl_convertCell_of_blanks hteam (ht.team row hmem), hpk, hgame]

theorem map_convertWeapons (ht : Legible t) {rows : List WeaponRow}
    (h : List.Forall₂ WeaponRow.PartOf rows t.weapons) : rows.map convertWeapons = t.weapons := by
  refine map_eq_of_forall₂ h fun row' row hmem ⟨hpk, hname⟩ => ?_
  rw [convertWeapons, foldl_convertCell_of_blanks hname (ht.weapon row hmem), hpk]

theorem map_convertObjectives (ht : Legible t) {rows : List ObjectiveRow}
    (h : List.Forall₂ ObjectiveRow.PartOf rows t.objectives) :
    rows.map convertObjectives = t.objectives := by
  refine map_eq_of_forall₂ h fun row' row hmem ⟨hpk, hname, hstatus⟩ => ?_
  rw [convertObjectives, foldl_convertCell_of_blanks hname (ht.objective row hmem),
    foldl_convertCell_of_blanks hstatus (ht.objectiveStatus row hmem), hpk]

theorem map_convertProcedures (ht : Legible t) {rows : List ProcedureRow}
    (h : List.Forall₂ ProcedureRow.PartOf rows t.procedures) :
    rows.map convertProcedures = t.procedures := by
  refine map_eq_of_forall₂ h fun row' row hmem ⟨hpk, hname⟩ => ?_
  rw [convertProcedures, foldl_convertCell_of_blanks hname (ht.procedure row hmem), hpk]

theorem execute_gameStatements (t : EnumTables) :
    LegacyColumns.execute gameStatements t = { t with games := t.games.map convertGames } := by
  rw [gameStatements, execute_append,
    execute_convertColumn lawful_trackerGame ⟨fun _ _ => rfl, fun _ => rfl, fun _ _ _ => rfl⟩,
    execute_convertColumn lawful_trackerGame ⟨fun _ _ => rfl, fun _ => rfl, fun _ _ _ => rfl⟩]
  simp only [trackerGame, List.map_map]
  rfl

theorem execute_playerStatements (t : EnumTables) :
    LegacyColumns.execute playerStatements t =
      { t with players := t.players.map convertPlayers } := by
  rw [playerStatements, execute_append,
    execute_convertColumn lawful_trackerPlayer ⟨fun _ _ => rfl, fun _ => rfl, fun _ _ _ => rfl⟩,
    execute_convertColumn lawful_trackerPlayer ⟨fun _ _ => rfl, fun _ => rfl, fun _ _ _ => rfl⟩]
  simp only [trackerPlayer, List.map_map]
  rfl

theorem execute_weaponStatements (t : EnumTables) :
    LegacyColumns.execute weaponStatements t =
      { t with weapons := t.weapons.map convertWeapons } :=
  execute_convertColumn lawful_trackerWeapon ⟨fun _ _ => rfl, fun _ => rfl, fun _ _ _ => rfl⟩ _ t

theorem execute_objectiveStatements (t : EnumTables) :
    LegacyColumns.execute objectiveStatements t =
      { t with objectives := t.objectives.map convertObjectives } := by
  rw [objectiveStatements, execute_append,
    execute_convertColumn lawful_trackerObjective
      ⟨fun _ _ => rfl, fun _ => rfl, fun _ _ _ => rfl⟩,
    execute_convertColumn lawful_trackerObjective
      ⟨fun _ _ => rfl, fun _ => rfl, fun _ _ _ => rfl⟩]
  simp only [trackerObjective, List.map_map, Function.comp_def]
  congr 1

theorem execute_procedureStatements (t : EnumTables) :
    LegacyColumns.execute procedureStatements t =
      { t with procedures := t.procedures.map convertProcedures } :=
  execute_convertColumn lawful_trackerProcedure ⟨fun _ _ => rfl, fun _ => rfl, fun _ _ _ => rfl⟩
    _ t

theorem exists_execute_resetStatements (h : t'.PartOf t) :
    ∃ players, LegacyColumns.execute resetStatements t' = { t' with players := players } ∧
      List.Forall₂ PlayerRow.PartOf players t.players :=
  exists_execute_resets h _

/-- The whole command fills every cell. The types of the games are there when the players are
reset, and what is reset is filled again. -/
theorem execute_statements (ht : Legible t) (h : t'.PartOf t) :
    LegacyColumns.execute statements t' = t := by
  have hgames := map_convertGames ht h.games
  have hpart : EnumTables.PartOf { t' with games := t.games } t :=
    { h with games := List.forall₂_same.mpr fun row _ => ⟨rfl, .refl _, .refl _⟩ }
  obtain ⟨players, hresets, hplayers⟩ := exists_execute_resetStatements hpart
  simp only [statements, execute_append, execute_gameStatements, hgames, hresets,
    execute_playerStatements, execute_weaponStatements, execute_objectiveStatements,
    execute_procedureStatements]
  simp only [map_convertPlayers ht hplayers, map_convertWeapons ht h.weapons,
    map_convertObjectives ht h.objectives, map_convertProcedures ht h.procedures]

end Tables

theorem decodes_gametype (gametype : GameType) :
    OrderedDict.get? gametypeMapping gametype.legacy = some gametype := by
  cases gametype <;> rfl

theorem decodes_outcome (outcome : Option GameOutcome) :
    OrderedDict.get? outcomeMapping (GameOutcome.legacy outcome) = outcome := by
  obtain _ | outcome := outcome
  · rfl
  · cases outcome <;> rfl

theorem decodes_coopStatus (status : Option CoopStatus) :
    OrderedDict.get? coopStatusMapping (CoopStatus.legacy status) = status := by
  obtain _ | status := status
  · rfl
  · cases status <;> rfl

theorem decodes_team (team : Team) : OrderedDict.get? teamMapping team.legacy = some team := by
  cases team <;> rfl

theorem decodes_equipment (equipment : Equipment) :
    OrderedDict.get? equipmentMapping equipment.legacy = some equipment := by
  cases equipment <;> rfl

theorem decodes_objectiveStatus (status : CoopObjectiveStatus) :
    OrderedDict.get? objectiveStatusMapping status.legacy = some status := by
  cases status <;> rfl

theorem decodes_procedure (procedure : CoopProcedure) :
    OrderedDict.get? procedureMapping procedure.legacy = some procedure := by
  cases procedure <;> rfl

theorem get?_objectiveMapping : ∀ index < 44,
    OrderedDict.get? objectiveMapping (index : ℕ) = Schema.objectiveNames[index]? := by
  decide

theorem decodes_objective {name : String} {code : ℤ}
    (h : Schema.objectivesReversed name = .ok code) :
    OrderedDict.get? objectiveMapping code = some name := by
  unfold Schema.objectivesReversed at h
  split at h
  · rename_i index hindex
    cases h
    obtain ⟨hlt, hname, -⟩ := List.idxOf?_eq_some_iff.mp hindex
    rw [get?_objectiveMapping index hlt, List.getElem?_eq_getElem hlt]
    exact congrArg some hname
  · cases h

section Stored

variable {accepted : GameData → Prop} {t : GameTables} {game : Game} {player : PlayerId}

theorem legacy_of_isGame {data : GameData} (h : IsGame game data) :
    game.gametypeLegacy = game.gametype.legacy ∧
      game.outcomeLegacy = GameOutcome.legacy game.outcome := by
  obtain ⟨server, dateFinished, map, hrow⟩ := h
  have hgametype : game.gametype = data.gametype := congrArg Game.gametype hrow
  have hgametypeLegacy : game.gametypeLegacy = data.gametype.legacy :=
    congrArg Game.gametypeLegacy hrow
  have houtcome : game.outcome = data.outcome := congrArg Game.outcome hrow
  have houtcomeLegacy : game.outcomeLegacy = GameOutcome.legacy data.outcome :=
    congrArg Game.outcomeLegacy hrow
  rw [hgametype, houtcome]
  exact ⟨hgametypeLegacy, houtcomeLegacy⟩

theorem legacy_of_isPlayer {row : Player} {item : PlayerItem} (h : IsPlayer game row item) :
    row.coopStatusLegacy = CoopStatus.legacy row.coopStatus ∧
      row.teamLegacy = row.team.map Team.legacy := by
  obtain ⟨aliasId, loadout, ip, -, hrow⟩ := h
  have hstatus : row.coopStatus = item.coopStatus.join := congrArg Player.coopStatus hrow
  have hstatusLegacy : row.coopStatusLegacy = (item.coopStatus.map CoopStatus.legacy).getD 0 :=
    congrArg Player.coopStatusLegacy hrow
  have hteam : row.team = some item.team := congrArg Player.team hrow
  have hteamLegacy : row.teamLegacy = some item.team.legacy := congrArg Player.teamLegacy hrow
  refine ⟨?_, by rw [hteam, hteamLegacy]; rfl⟩
  rw [hstatus, hstatusLegacy]
  cases item.coopStatus <;> rfl

theorem legacy_of_newObjective {item : ObjectiveItem} {row : Objective}
    (h : newObjective game item = .ok row) :
    Schema.objectivesReversed row.name = .ok row.nameLegacy ∧
      row.statusLegacy = row.status.legacy := by
  rw [newObjective] at h
  cases hname : Schema.objectivesReversed item.name with
  | error e => simp [hname, bind, Except.bind] at h
  | ok code =>
    simp only [hname, bind, Except.bind, pure, Except.pure] at h
    cases h
    exact ⟨hname, rfl⟩

theorem legacy_of_newWeapon {item : WeaponItem} {name : Equipment} {row : Weapon}
    (h : newWeapon player item name = .ok row) : row.nameLegacy = row.name.legacy := by
  rw [newWeapon] at h
  cases hname : Schema.weaponReversed name with
  | error e => simp [hname, bind, Except.bind] at h
  | ok code =>
    simp only [hname, bind, Except.bind, pure, Except.pure] at h
    cases h
    cases name with
    | none => cases hname
    | _ =>
      cases hname
      rfl

theorem legacy_of_isProcedure {row : Procedure} {item : ProcedureItem}
    (h : IsProcedure game row item) : row.nameLegacy = row.name.legacy := by
  have hname : row.name = item.name := congrArg Procedure.name h
  rw [hname]
  exact congrArg Procedure.nameLegacy h

theorem legacy_of_player (h : Invariant accepted t) {row : Player} (hrow : row ∈ t.players.rows) :
    row.coopStatusLegacy = CoopStatus.legacy row.coopStatus ∧
      row.teamLegacy = row.team.map Team.legacy := by
  obtain ⟨game, hgame, hpk⟩ := h.players row hrow
  obtain ⟨data, -, hstored⟩ := h.stored game hgame
  exact forall_of_forall₂ hstored.players (fun _ _ => legacy_of_isPlayer) row
    (List.mem_filter.mpr ⟨hrow, by simp [hpk]⟩)

theorem legacy_of_weapon (h : Invariant accepted t) {row : Weapon} (hrow : row ∈ t.weapons.rows) :
    row.nameLegacy = row.name.legacy := by
  obtain ⟨player, hplayer, hpk⟩ := h.weapons row hrow
  obtain ⟨game, hgame, hgamePk⟩ := h.players player hplayer
  obtain ⟨data, -, hstored⟩ := h.stored game hgame
  refine forall_of_forall₂ hstored.weapons
    (P := fun player => ∀ weapon ∈ weaponsOf t player.pk, weapon.nameLegacy = weapon.name.legacy)
    (fun player item hweapons => ?_) player (List.mem_filter.mpr ⟨hplayer, by simp [hgamePk]⟩) row
    (List.mem_filter.mpr ⟨hrow, by simp [hpk]⟩)
  refine forall_of_forall₂ hweapons fun weapon item hweapon => ?_
  obtain ⟨name, -, hnew⟩ := hweapon
  have hlegacy := legacy_of_newWeapon hnew
  exact hlegacy

theorem legacy_of_objective (h : Invariant accepted t) {row : Objective}
    (hrow : row ∈ t.objectives.rows) :
    Schema.objectivesReversed row.name = .ok row.nameLegacy ∧
      row.statusLegacy = row.status.legacy := by
  obtain ⟨game, hgame, hpk⟩ := h.objectives row hrow
  obtain ⟨data, -, hstored⟩ := h.stored game hgame
  exact forall_of_forall₂ hstored.objectives (fun _ _ hnew => legacy_of_newObjective hnew) row
    (List.mem_filter.mpr ⟨hrow, by simp [hpk]⟩)

theorem legacy_of_procedure (h : Invariant accepted t) {row : Procedure}
    (hrow : row ∈ t.procedures.rows) : row.nameLegacy = row.name.legacy := by
  obtain ⟨game, hgame, hpk⟩ := h.procedures row hrow
  obtain ⟨data, -, hstored⟩ := h.stored game hgame
  exact forall_of_forall₂ hstored.procedures (fun _ _ => legacy_of_isProcedure) row
    (List.mem_filter.mpr ⟨hrow, by simp [hpk]⟩)

/-- Every row belongs to a saved report, and both of its columns are made from the report. -/
theorem legible_columns (h : Invariant accepted t) : Legible (columns t) where
  gametype := by
    intro row hrow
    obtain ⟨game, hgame, rfl⟩ := List.mem_map.mp hrow
    obtain ⟨data, -, hstored⟩ := h.stored game hgame
    show some game.gametype = OrderedDict.get? gametypeMapping game.gametypeLegacy
    rw [(legacy_of_isGame hstored.row).1, decodes_gametype]
  outcome := by
    intro row hrow
    obtain ⟨game, hgame, rfl⟩ := List.mem_map.mp hrow
    obtain ⟨data, -, hstored⟩ := h.stored game hgame
    show game.outcome = OrderedDict.get? outcomeMapping game.outcomeLegacy
    rw [(legacy_of_isGame hstored.row).2, decodes_outcome]
  coopStatus := by
    intro row hrow
    obtain ⟨player, hplayer, rfl⟩ := List.mem_map.mp hrow
    show player.coopStatus = OrderedDict.get? coopStatusMapping player.coopStatusLegacy
    rw [(legacy_of_player h hplayer).1, decodes_coopStatus]
  team := by
    intro row hrow
    obtain ⟨player, hplayer, rfl⟩ := List.mem_map.mp hrow
    show player.team = player.teamLegacy.bind (OrderedDict.get? teamMapping)
    rw [(legacy_of_player h hplayer).2]
    cases player.team with
    | none => rfl
    | some team => exact (decodes_team team).symm
  weapon := by
    intro row hrow
    obtain ⟨weapon, hweapon, rfl⟩ := List.mem_map.mp hrow
    show some weapon.name = OrderedDict.get? equipmentMapping weapon.nameLegacy
    rw [legacy_of_weapon h hweapon, decodes_equipment]
  objective := by
    intro row hrow
    obtain ⟨objective, hobjective, rfl⟩ := List.mem_map.mp hrow
    exact (decodes_objective (legacy_of_objective h hobjective).1).symm
  objectiveStatus := by
    intro row hrow
    obtain ⟨objective, hobjective, rfl⟩ := List.mem_map.mp hrow
    show some objective.status = OrderedDict.get? objectiveStatusMapping objective.statusLegacy
    rw [(legacy_of_objective h hobjective).2, decodes_objectiveStatus]
  procedure := by
    intro row hrow
    obtain ⟨procedure, hprocedure, rfl⟩ := List.mem_map.mp hrow
    show some procedure.name = OrderedDict.get? procedureMapping procedure.nameLegacy
    rw [legacy_of_procedure h hprocedure, decodes_procedure]

end Stored

/-- However many reports have been delivered, and whatever cells of the enum columns are then
emptied, `convert_enums` restores them from the legacy columns, also after a run of it that was cut
off after any number of statements. -/
theorem convertEnums_restores {outside : External} {db₀ db : Database} {es : List Delivery}
    (hempty : gameTables db₀ = GameTables.empty) (hrun : Run (system outside) db₀ es db)
    {t' : EnumTables} (hpart : t'.PartOf (columns (gameTables db))) (executed : ℕ) :
    execute statements (execute (statements.take executed) t') = columns (gameTables db) := by
  have hlegible := legible_columns (invariant_run hempty hrun)
  exact execute_statements hlegible
    (hpart.execute hlegible fun statement hmem => List.mem_of_mem_take hmem)

/-- The columns with no enum left. -/
def emptied (t : EnumTables) : EnumTables where
  games := t.games.map fun row =>
    { row with gametype := { row.gametype with enum := none }
               outcome := { row.outcome with enum := none } }
  players := t.players.map fun row =>
    { row with coopStatus := { row.coopStatus with enum := none }
               team := { row.team with enum := none } }
  weapons := t.weapons.map fun row => { row with name := { row.name with enum := none } }
  objectives := t.objectives.map fun row =>
    { row with name := { row.name with enum := none }, status := { row.status with enum := none } }
  procedures := t.procedures.map fun row => { row with name := { row.name with enum := none } }

theorem emptied_partOf (t : EnumTables) : (emptied t).PartOf t where
  games := List.forall₂_map_left_iff.mpr (List.forall₂_same.mpr fun _ _ =>
    ⟨rfl, ⟨rfl, .inl rfl⟩, ⟨rfl, .inl rfl⟩⟩)
  players := List.forall₂_map_left_iff.mpr (List.forall₂_same.mpr fun _ _ =>
    ⟨rfl, rfl, ⟨rfl, .inl rfl⟩, ⟨rfl, .inl rfl⟩⟩)
  weapons := List.forall₂_map_left_iff.mpr (List.forall₂_same.mpr fun _ _ =>
    ⟨rfl, ⟨rfl, .inl rfl⟩⟩)
  objectives := List.forall₂_map_left_iff.mpr (List.forall₂_same.mpr fun _ _ =>
    ⟨rfl, ⟨rfl, .inl rfl⟩, ⟨rfl, .inl rfl⟩⟩)
  procedures := List.forall₂_map_left_iff.mpr (List.forall₂_same.mpr fun _ _ =>
    ⟨rfl, ⟨rfl, .inl rfl⟩⟩)

theorem emptied_restored :
    let stored := columns (gameTables
      (retriedDelivery.foldl (system plainOutside).next sampleServer))
    stored.weapons.map WeaponRow.name = [⟨some 15, some .coltPython⟩] ∧
    execute statements (execute (statements.take 3) (emptied stored)) = stored := by
  have hrun : Run (system plainOutside) sampleServer retriedDelivery
      (retriedDelivery.foldl (system plainOutside).next sampleServer) :=
    .cons trivial (.cons trivial (.cons trivial (.nil _)))
  exact ⟨by decide +kernel, convertEnums_restores rfl hrun (emptied_partOf _) 3⟩

end LegacyColumns

end Swat4Stats
