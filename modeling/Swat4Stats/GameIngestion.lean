import Swat4Stats.GameSave
import Swat4Stats.Library.Transition

/-!
# Games are saved once and completely

What one save adds to the five tables of a game, whatever fails on the way, and from it what is
stored for every game of a sequence of deliveries.
-/

namespace Swat4Stats

set_option autoImplicit false

open Tx Transition

namespace GameIngestion

open GameManager

/-- The tables that only the save of a game writes to. -/
structure GameTables where
  games : Table Game Game.pk
  procedures : Table Procedure Procedure.pk
  objectives : Table Objective Objective.pk
  players : Table Player Player.pk
  weapons : Table Weapon Weapon.pk

def gameTables (db : Database) : GameTables :=
  ⟨db.games, db.procedures, db.objectives, db.players, db.weapons⟩

def GameTables.empty : GameTables :=
  ⟨Table.empty, Table.empty, Table.empty, Table.empty, Table.empty⟩

def IsGame (row : Game) (data : GameData) : Prop :=
  ∃ server dateFinished map, { row with pk := 0 } = newGame server data dateFinished map

def IsProcedure (game : Game) (row : Procedure) (item : ProcedureItem) : Prop :=
  { row with pk := 0 } = newProcedure game item

def IsObjective (game : Game) (row : Objective) (item : ObjectiveItem) : Prop :=
  newObjective game item = .ok { row with pk := 0 }

def IsPlayer (game : Game) (row : Player) (item : PlayerItem) : Prop :=
  ∃ aliasId loadout ip, parseIPv4 item.ip = some ip ∧
    { row with pk := 0 } = newPlayer game aliasId loadout ip item

def IsWeapon (player : PlayerId) (row : Weapon) (item : WeaponItem) : Prop :=
  ∃ name, item.name = some name ∧ newWeapon player item name = .ok { row with pk := 0 }

/-- The weapon entries of a player that are stored: none in a coop game. -/
def storedItems (game : Game) (weapons : Option (List WeaponItem)) : List WeaponItem :=
  if game.isCoopGame then [] else (weapons.getD []).filter fun item => item.name ≠ none

def IsPlayerWithWeapons (game : Game) (entry : Player × List Weapon) (item : PlayerItem) : Prop :=
  IsPlayer game entry.1 item ∧
    List.Forall₂ (IsWeapon entry.1.pk) entry.2 (storedItems game item.weapons)

def proceduresOf (t : GameTables) (game : Game) : List Procedure :=
  t.procedures.rows.filter fun row => row.game = game.pk

def objectivesOf (t : GameTables) (game : Game) : List Objective :=
  t.objectives.rows.filter fun row => row.game = game.pk

def playersOf (t : GameTables) (game : Game) : List Player :=
  t.players.rows.filter fun row => row.game = game.pk

def weaponsOf (t : GameTables) (player : PlayerId) : List Weapon :=
  t.weapons.rows.filter fun row => row.player = player

/-- The rows of a game are those of the report: one for each entry, in the order of the entries. -/
structure Stored (t : GameTables) (game : Game) (data : GameData) : Prop where
  row : IsGame game data
  procedures : List.Forall₂ (IsProcedure game) (proceduresOf t game) (data.coopProcedures.getD [])
  objectives : List.Forall₂ (IsObjective game) (objectivesOf t game) (data.coopObjectives.getD [])
  players : List.Forall₂ (IsPlayer game) (playersOf t game) (data.players.getD [])
  weapons : List.Forall₂
    (fun row (item : PlayerItem) => List.Forall₂ (IsWeapon row.pk) (weaponsOf t row.pk)
      (storedItems game item.weapons))
    (playersOf t game) (data.players.getD [])

theorem IsGame.tag {row : Game} {data : GameData} (h : IsGame row data) :
    row.tag = some data.tag := by
  obtain ⟨server, dateFinished, map, hrow⟩ := h
  have htag := congrArg Game.tag hrow
  exact htag

/-- The tables between the insertion of a game and the end of the transaction: what has been
added to the tables `t₀` for the entries saved so far. -/
structure Saved (t₀ t : GameTables) (game : Game) (procedures : List ProcedureItem)
    (objectives : List ObjectiveItem) (players : List PlayerItem) : Prop where
  games : t.games.rows = t₀.games.rows ++ [game]
  procedures : ∃ rows, t.procedures.rows = t₀.procedures.rows ++ rows ∧
    List.Forall₂ (IsProcedure game) rows procedures
  objectives : ∃ rows, t.objectives.rows = t₀.objectives.rows ++ rows ∧
    List.Forall₂ (IsObjective game) rows objectives
  players : ∃ saved : List (Player × List Weapon),
    t.players.rows = t₀.players.rows ++ saved.map Prod.fst ∧
    t.weapons.rows = t₀.weapons.rows ++ saved.flatMap Prod.snd ∧
    List.Forall₂ (IsPlayerWithWeapons game) saved players

/-- The game that a save inserts. -/
structure Inserted (t₀ : GameTables) (server : ServerId) (data : GameData) (game : Game) :
    Prop where
  untagged : ∀ g ∈ t₀.games.rows, g.tag ≠ some data.tag
  pk : game.pk = t₀.games.nextPk
  row : IsGame game data
  server : game.server = server

theorem ensures_ifAny {β : Type} {xs : Option (List β)} {body : List β → DbTx Unit}
    (R : List β → Database → Prop) (h : ∀ ys, Ensures (body ys) (R []) fun _ => R ys) :
    Ensures (ifAny xs body) (R []) fun _ => R (xs.getD []) := by
  match xs with
  | none => exact Ensures.pure fun _ hr => hr
  | some [] => exact Ensures.pure fun _ hr => hr
  | some (x :: xs) => exact h (x :: xs)

theorem forall₂_of_mapM_ok {α β ε : Type} {f : α → Except ε β} {xs : List α} {ys : List β}
    (h : xs.mapM f = .ok ys) : List.Forall₂ (fun y x => f x = .ok y) ys xs := by
  induction xs generalizing ys with
  | nil =>
    cases h
    exact .nil
  | cons x xs ih =>
    rw [List.mapM_cons] at h
    cases hx : f x with
    | error e => simp [hx, bind, Except.bind] at h
    | ok y =>
      cases hxs : xs.mapM f with
      | error e => simp [hx, hxs, bind, Except.bind] at h
      | ok ys' =>
        simp only [hx, hxs, bind, Except.bind, pure, Except.pure] at h
        cases h
        exact .cons hx (ih hxs)

theorem forall₂_comp {α β γ : Type} {R : α → β → Prop} {S : β → γ → Prop} {as : List α}
    {bs : List β} {cs : List γ} (h : List.Forall₂ R as bs) (h' : List.Forall₂ S bs cs) :
    List.Forall₂ (fun a c => ∃ b, R a b ∧ S b c) as cs := by
  induction h generalizing cs with
  | nil =>
    cases h'
    exact .nil
  | cons hab _ ih =>
    cases h' with
    | cons hbc h' => exact .cons ⟨_, hab, hbc⟩ (ih h')

theorem pk_of_newObjective {game : Game} {item : ObjectiveItem} {row : Objective}
    (h : newObjective game item = .ok row) : row.pk = 0 ∧ row.game = game.pk := by
  rw [newObjective] at h
  cases hname : Schema.objectivesReversed item.name with
  | error e => simp [hname, bind, Except.bind] at h
  | ok code =>
    simp only [hname, bind, Except.bind, pure, Except.pure] at h
    cases h
    exact ⟨rfl, rfl⟩

theorem pk_of_newWeapon {player : PlayerId} {item : WeaponItem} {name : Equipment} {row : Weapon}
    (h : newWeapon player item name = .ok row) : row.pk = 0 ∧ row.player = player := by
  rw [newWeapon] at h
  cases hname : Schema.weaponReversed name with
  | error e => simp [hname, bind, Except.bind] at h
  | ok code =>
    simp only [hname, bind, Except.bind, pure, Except.pure] at h
    cases h
    exact ⟨rfl, rfl⟩

theorem forall₂_of_newWeapons {player : PlayerId} {items : List WeaponItem} {rows : List Weapon}
    (h : newWeapons player items = .ok rows) :
    List.Forall₂
      (fun row item => ∃ name, item.name = some name ∧ newWeapon player item name = .ok row)
      rows (items.filter fun item => item.name ≠ none) := by
  have hall := forall₂_of_mapM_ok h
  clear h
  induction items generalizing rows with
  | nil =>
    cases hall
    exact .nil
  | cons item items ih =>
    cases hname : item.name with
    | none =>
      simp only [List.filterMap_cons, hname, Option.map_none] at hall
      rw [List.filter_cons_of_neg (by simp [hname])]
      exact ih hall
    | some name =>
      simp only [List.filterMap_cons, hname, Option.map_some] at hall
      cases hall with
      | cons hrow hrest =>
        rw [List.filter_cons_of_pos (by simp [hname])]
        exact .cons ⟨name, hname, hrow⟩ (ih hrest)

section Save

variable {t₀ : GameTables} {game : Game} {data : GameData} {procedures : List ProcedureItem}
  {objectives : List ObjectiveItem} {players : List PlayerItem}

theorem keeps_obtainFor (outside : External) (name : String) :
    Keeps gameTables (MapManager.obtainFor outside name) := by
  refine Keeps.bind (keeps_getOrCreate (Keeps.statement ?_)) fun _ => Keeps.pure
  rintro db map db' ⟨⟩
  rfl

theorem keeps_obtain (loadout : Option (LoadoutSlots Equipment Ammo)) :
    Keeps gameTables (LoadoutManager.obtain loadout) := by
  refine Keeps.bind (keeps_getOrCreate (Keeps.statement ?_)) fun _ => Keeps.pure
  rintro db slots db' ⟨⟩
  rfl

theorem ensures_createUnlessSaved (t₀ : GameTables) (outside : External) (server : ServerId)
    (data : GameData) (dateFinished : Time) :
    Ensures (createUnlessSaved outside server data dateFinished) (fun db => gameTables db = t₀)
      fun game db => Inserted t₀ server data game ∧ Saved t₀ (gameTables db) game [] [] [] := by
  refine Ensures.rescue (I := fun _ => True) (Ensures.atomic ?_) (fun _ _ _ _ _ => trivial) ?_
  · refine ((keeps_obtainFor outside data.mapname).ensures (· = t₀)).bind fun map => ?_
    apply Ensures.statement
    rintro db game db' rfl hcreate
    split at hcreate
    · cases hcreate
    · rename_i htag
      cases hcreate
      refine ⟨⟨?_, rfl, ⟨server, dateFinished, map, rfl⟩, rfl⟩, ⟨rfl, ?_, ?_, ?_⟩⟩
      · intro g hg hgtag
        exact htag ⟨by simp [newGame], g, hg, hgtag⟩
      · exact ⟨[], by simp [gameTables], .nil⟩
      · exact ⟨[], by simp [gameTables], .nil⟩
      · exact ⟨[], by simp [gameTables], by simp [gameTables], .nil⟩
  · intro e
    split
    · exact Ensures.raise
    · exact Ensures.rethrow

theorem ensures_createGameProcedures (items : List ProcedureItem) :
    Ensures (_createGameProcedures game items)
      (fun db => Saved t₀ (gameTables db) game [] objectives players)
      fun _ db => Saved t₀ (gameTables db) game items objectives players := by
  apply Ensures.write
  rintro db ⟨hgames, ⟨_, hrows, ⟨⟩⟩, hobjectives, hplayers⟩
  refine ⟨hgames, ?_, hobjectives, hplayers⟩
  obtain ⟨created, hcreate, hcreated⟩ := Table.rows_createAll
    (fun (row : Procedure) (pk : ℕ) => (rfl : Procedure.pk { row with pk } = pk)) db.procedures
    (items.map (newProcedure game))
  rw [List.append_nil] at hrows
  refine ⟨created, hcreate.trans (congrArg (· ++ created) hrows), ?_⟩
  rw [List.forall₂_map_right_iff] at hcreated
  apply hcreated.imp
  rintro row item ⟨pk, rfl⟩
  rfl

theorem ensures_createGameObjectives (items : List ObjectiveItem) :
    Ensures (_createGameObjectives game items)
      (fun db => Saved t₀ (gameTables db) game procedures [] players)
      fun _ db => Saved t₀ (gameTables db) game procedures items players := by
  rw [_createGameObjectives]
  split
  · exact Ensures.raise
  · rename_i rows hnew
    apply Ensures.write
    rintro db ⟨hgames, hprocedures, ⟨_, hrows, ⟨⟩⟩, hplayers⟩
    refine ⟨hgames, hprocedures, ?_, hplayers⟩
    obtain ⟨created, hcreate, hcreated⟩ := Table.rows_createAll
      (fun (row : Objective) (pk : ℕ) => (rfl : Objective.pk { row with pk } = pk))
      db.objectives rows
    rw [List.append_nil] at hrows
    refine ⟨created, hcreate.trans (congrArg (· ++ created) hrows), ?_⟩
    apply (forall₂_comp hcreated (forall₂_of_mapM_ok hnew)).imp
    rintro _ item ⟨row, ⟨pk, rfl⟩, hitem⟩
    have hpk := (pk_of_newObjective hitem).1
    rw [IsObjective, hitem]
    cases row
    cases hpk
    rfl

theorem ensures_createPlayerWeapons (t₁ : GameTables) (game : Game) (player : PlayerId)
    (weapons : Option (List WeaponItem)) :
    Ensures (createPlayerWeapons game player weapons) (fun db => gameTables db = t₁)
      fun _ db => ∃ w rows, gameTables db = { t₁ with weapons := w } ∧
        w.rows = t₁.weapons.rows ++ rows ∧
        List.Forall₂ (IsWeapon player) rows (storedItems game weapons) := by
  have hnone : storedItems game weapons = [] → Ensures (pure () : DbTx Unit)
      (fun db => gameTables db = t₁) fun _ db => ∃ w rows,
        gameTables db = { t₁ with weapons := w } ∧
        w.rows = t₁.weapons.rows ++ rows ∧
        List.Forall₂ (IsWeapon player) rows (storedItems game weapons) := by
    intro hitems
    apply Ensures.pure
    rintro db rfl
    exact ⟨db.weapons, [], rfl, by simp [gameTables], by rw [hitems]; exact .nil⟩
  rw [createPlayerWeapons]
  split
  · rename_i hcoop
    exact hnone (by simp [storedItems, hcoop])
  · rename_i hcoop
    match weapons with
    | none => exact hnone (by simp [storedItems])
    | some [] => exact hnone (by simp [storedItems])
    | some (x :: xs) =>
      change Ensures (createWeapons player (x :: xs)) _ _
      generalize x :: xs = items
      rw [createWeapons]
      split
      · exact Ensures.raise
      · rename_i rows hnew
        apply Ensures.write
        rintro db rfl
        obtain ⟨created, hcreate, hcreated⟩ := Table.rows_createAll
          (fun (row : Weapon) (pk : ℕ) => (rfl : Weapon.pk { row with pk } = pk)) db.weapons rows
        refine ⟨_, created, rfl, hcreate, ?_⟩
        have hitems : storedItems game (some items) =
            items.filter fun item => item.name ≠ none := by
          simp [storedItems, hcoop]
        rw [hitems]
        apply (forall₂_comp hcreated (forall₂_of_newWeapons hnew)).imp
        rintro _ item ⟨row, ⟨pk, rfl⟩, name, hname, hitem⟩
        refine ⟨name, hname, ?_⟩
        have hpk := (pk_of_newWeapon hitem).1
        rw [hitem]
        cases row
        cases hpk
        rfl

theorem ensures_createGamePlayer (outside : External) (env : LookupEnv) (item : PlayerItem) :
    Ensures (createGamePlayer outside env game item)
      (fun db => Saved t₀ (gameTables db) game procedures objectives players)
      fun _ db => Saved t₀ (gameTables db) game procedures objectives (players ++ [item]) := by
  rw [createGamePlayer]
  split
  · rename_i aliasName ip hname hip
    refine Ensures.bind ((AliasManager.keeps_matchOrCreate (f := gameTables)
      (fun _ _ _ _ _ => rfl) outside env aliasName item.ip).ensures
        (fun t => Saved t₀ t game procedures objectives players)) fun row => ?_
    refine Ensures.bind ((keeps_obtain item.loadout).ensures
        (fun t => Saved t₀ t game procedures objectives players)) fun loadout => ?_
    refine Ensures.of_forall fun db₁ hsaved => ?_
    set player := newPlayer game row.1 loadout ip item with hplayer
    set t₁ : GameTables := gameTables
      { db₁ with players := db₁.players.create (fun pk => { player with pk }) fun _ => rfl }
    refine Ensures.bind (Q := fun pk db => pk = db₁.players.nextPk ∧ gameTables db = t₁)
      (Ensures.statement ?_) fun pk => ?_
    · rintro db pk db' rfl ⟨⟩
      exact ⟨rfl, rfl⟩
    · refine Ensures.of_forall fun db₂ => ?_
      rintro ⟨rfl, ht⟩
      refine ((ensures_createPlayerWeapons t₁ game _ item.weapons).mono ?_ ?_)
      · rintro db rfl
        exact ht
      · rintro _ db ⟨w, rows, hdb, hw, hrows⟩
        obtain ⟨hgames, hprocedures, hobjectives, saved, hold, holdWeapons, hall⟩ := hsaved
        rw [hdb]
        refine ⟨hgames, hprocedures, hobjectives,
          saved ++ [({ player with pk := db₁.players.nextPk }, rows)], ?_, ?_, ?_⟩
        · change db₁.players.rows ++ [_] = _
          rw [List.map_append, ← List.append_assoc]
          exact congrArg (· ++ _) hold
        · rw [hw, List.flatMap_append, ← List.append_assoc, List.flatMap_singleton]
          exact congrArg (· ++ rows) holdWeapons
        · exact List.rel_append hall (.cons ⟨⟨row.1, loadout, ip, hip, rfl⟩, hrows⟩ .nil)
  · exact Ensures.raise

theorem ensures_createGamePlayers (outside : External) (envs : ℕ → LookupEnv)
    (items : List PlayerItem) :
    Ensures (_createGamePlayers outside envs game items)
      (fun db => Saved t₀ (gameTables db) game procedures objectives [])
      fun _ db => Saved t₀ (gameTables db) game procedures objectives items := by
  have hloop : Ensures (_createGamePlayers outside envs game items)
      (fun db => Saved t₀ (gameTables db) game procedures objectives [])
      fun _ db => Saved t₀ (gameTables db) game procedures objectives
        (items.zipIdx.map Prod.fst) := by
    refine Ensures.forEach (fun done db =>
      Saved t₀ (gameTables db) game procedures objectives (done.map Prod.fst)) ?_
    rintro done ⟨item, index⟩ rest _
    rw [List.map_append, List.map_singleton]
    exact ensures_createGamePlayer outside (envs index) item
  rwa [List.zipIdx_map_fst] at hloop

theorem ensures_createGame (t₀ : GameTables) (outside : External) (envs : ℕ → LookupEnv)
    (server : ServerId) (data : GameData) (dateFinished : Time) :
    Ensures (createGame outside envs server data dateFinished) (fun db => gameTables db = t₀)
      fun game db => Inserted t₀ server data game ∧ Saved t₀ (gameTables db) game
        (data.coopProcedures.getD []) (data.coopObjectives.getD []) (data.players.getD []) := by
  apply Ensures.atomic
  refine (ensures_createUnlessSaved t₀ outside server data dateFinished).bind fun game => ?_
  refine Ensures.bind (ensures_ifAny (fun procedures db => Inserted t₀ server data game ∧
    Saved t₀ (gameTables db) game procedures [] []) fun procedures => ?_) fun _ => ?_
  · exact (ensures_createGameProcedures procedures).const_and _
  refine Ensures.bind (ensures_ifAny (fun objectives db => Inserted t₀ server data game ∧
    Saved t₀ (gameTables db) game (data.coopProcedures.getD []) objectives []) fun objectives => ?_)
    fun _ => ?_
  · exact (ensures_createGameObjectives objectives).const_and _
  refine Ensures.bind (ensures_ifAny (fun players db => Inserted t₀ server data game ∧
    Saved t₀ (gameTables db) game (data.coopProcedures.getD []) (data.coopObjectives.getD [])
      players) fun players => ?_) fun _ => ?_
  · exact (ensures_createGamePlayers outside envs players).const_and _
  exact Ensures.pure fun _ h => h

end Save

structure Invariant (accepted : GameData → Prop) (t : GameTables) : Prop where
  tags : ∀ g ∈ t.games.rows, ∀ g' ∈ t.games.rows, g.tag = g'.tag → g = g'
  stored : ∀ g ∈ t.games.rows, ∃ data, accepted data ∧ Stored t g data
  procedures : ∀ row ∈ t.procedures.rows, ∃ g ∈ t.games.rows, g.pk = row.game
  objectives : ∀ row ∈ t.objectives.rows, ∃ g ∈ t.games.rows, g.pk = row.game
  players : ∀ row ∈ t.players.rows, ∃ g ∈ t.games.rows, g.pk = row.game
  weapons : ∀ row ∈ t.weapons.rows, ∃ p ∈ t.players.rows, p.pk = row.player

theorem forall₂_imp_of_mem {α β : Type} {R S : α → β → Prop} {as : List α} {bs : List β}
    (h : List.Forall₂ R as bs) (himp : ∀ a ∈ as, ∀ b, R a b → S a b) : List.Forall₂ S as bs := by
  induction h with
  | nil => exact .nil
  | @cons a b as bs hab _ ih =>
    exact .cons (himp a (by simp) b hab) (ih fun a ha => himp a (by simp [ha]))

theorem forall_of_forall₂ {α β : Type} {R : α → β → Prop} {P : α → Prop} {as : List α}
    {bs : List β} (h : List.Forall₂ R as bs) (himp : ∀ a b, R a b → P a) : ∀ a ∈ as, P a :=
  ((List.forall₂_and_left as bs).mp (h.imp fun a b hab => ⟨himp a b hab, hab⟩)).1

section Owners

variable {α : Type} {owner : α → ℕ} {old new : List α} {k : ℕ}

theorem filter_append_of_new (hold : ∀ x ∈ old, owner x ≠ k) (hnew : ∀ x ∈ new, owner x = k) :
    ((old ++ new).filter fun x => owner x = k) = new := by
  rw [List.filter_append, List.filter_eq_nil_iff.mpr (by simpa using hold),
    List.filter_eq_self.mpr (by simpa using hnew), List.nil_append]

theorem filter_append_of_old (hnew : ∀ x ∈ new, owner x ≠ k) :
    ((old ++ new).filter fun x => owner x = k) = old.filter fun x => owner x = k := by
  rw [List.filter_append, (List.filter_eq_nil_iff (l := new)).mpr (by simpa using hnew),
    List.append_nil]

end Owners

theorem filter_flatMap_of_mem {saved : List (Player × List Weapon)} {entry : Player × List Weapon}
    (hnodup : (saved.map fun entry => entry.1.pk).Nodup)
    (howner : ∀ entry ∈ saved, ∀ w ∈ entry.2, w.player = entry.1.pk) (hentry : entry ∈ saved) :
    ((saved.flatMap Prod.snd).filter fun w => w.player = entry.1.pk) = entry.2 := by
  induction saved with
  | nil => cases hentry
  | cons first rest ih =>
    obtain ⟨hfirst, hrest⟩ := List.nodup_cons.mp hnodup
    rw [List.flatMap_cons]
    obtain rfl | hmem := List.mem_cons.mp hentry
    · -- the others have players with other keys
      rw [filter_append_of_old, List.filter_eq_self.mpr]
      · intro w hw
        simpa using howner _ hentry w hw
      · intro w hw
        obtain ⟨other, hother, hw⟩ := List.mem_flatMap.mp hw
        rw [howner other (by simp [hother]) w hw]
        intro hpk
        exact hfirst (List.mem_map.mpr ⟨other, hother, hpk⟩)
    · rw [List.filter_append, List.filter_eq_nil_iff.mpr, List.nil_append]
      · exact ih hrest (fun e he => howner e (by simp [he])) hmem
      · intro w hw
        rw [howner first (by simp) w hw]
        have hne : first.1.pk ≠ entry.1.pk := by
          intro hpk
          exact hfirst (List.mem_map.mpr ⟨entry, hmem, hpk.symm⟩)
        simpa using hne

section Added

variable {game : Game}

theorem game_of_procedures {rows : List Procedure} {items : List ProcedureItem}
    (h : List.Forall₂ (IsProcedure game) rows items) : ∀ row ∈ rows, row.game = game.pk := by
  refine forall_of_forall₂ h ?_
  intro row item hrow
  exact congrArg Procedure.game hrow

theorem game_of_objectives {rows : List Objective} {items : List ObjectiveItem}
    (h : List.Forall₂ (IsObjective game) rows items) : ∀ row ∈ rows, row.game = game.pk := by
  refine forall_of_forall₂ h ?_
  intro row item hrow
  exact (pk_of_newObjective hrow).2

theorem game_of_players {saved : List (Player × List Weapon)} {items : List PlayerItem}
    (h : List.Forall₂ (IsPlayerWithWeapons game) saved items) :
    ∀ row ∈ saved.map Prod.fst, row.game = game.pk := by
  have hgame := forall_of_forall₂ (P := fun entry => entry.1.game = game.pk) h <| by
    rintro entry item ⟨⟨_, _, _, _, hrow⟩, _⟩
    exact congrArg Player.game hrow
  simpa using hgame

theorem player_of_weapons {saved : List (Player × List Weapon)} {items : List PlayerItem}
    (h : List.Forall₂ (IsPlayerWithWeapons game) saved items) :
    ∀ entry ∈ saved, ∀ w ∈ entry.2, w.player = entry.1.pk := by
  refine forall_of_forall₂ h ?_
  rintro entry item ⟨_, hrows⟩
  refine forall_of_forall₂ hrows ?_
  rintro w item ⟨name, _, hw⟩
  exact (pk_of_newWeapon hw).2

theorem nodup_saved {t₀ t : GameTables} {saved : List (Player × List Weapon)}
    (hrows : t.players.rows = t₀.players.rows ++ saved.map Prod.fst) :
    (saved.map fun entry => entry.1.pk).Nodup ∧
      ∀ p ∈ t₀.players.rows, ∀ entry ∈ saved, p.pk ≠ entry.1.pk := by
  have hnodup := t.players.nodup
  rw [hrows, List.map_append, List.map_map, List.nodup_append] at hnodup
  obtain ⟨_, hsaved, hdisjoint⟩ := hnodup
  refine ⟨hsaved, ?_⟩
  intro p hp entry hentry
  exact hdisjoint _ (List.mem_map_of_mem hp) _ (List.mem_map_of_mem hentry)

end Added

section Step

variable {accepted : GameData → Prop} {t₀ t : GameTables} {server : ServerId} {game : Game}
  {data : GameData}

theorem stored_of_saved (hinv : Invariant accepted t₀) (hins : Inserted t₀ server data game)
    (hsaved : Saved t₀ t game (data.coopProcedures.getD []) (data.coopObjectives.getD [])
      (data.players.getD [])) : Stored t game data := by
  obtain ⟨_, ⟨procedures, hprocedures, hproc⟩, ⟨objectives, hobjectives, hobj⟩,
    saved, hplayers, hweapons, hall⟩ := hsaved
  have hold : ∀ {k}, (∃ g ∈ t₀.games.rows, g.pk = k) → k ≠ game.pk := by
    rintro _ ⟨g, hg, rfl⟩
    rw [hins.pk]
    exact (t₀.games.lt_nextPk hg).ne
  have hproceduresOf : proceduresOf t game = procedures := by
    rw [proceduresOf, hprocedures]
    exact filter_append_of_new (fun row hrow => hold (hinv.procedures row hrow))
      (game_of_procedures hproc)
  have hobjectivesOf : objectivesOf t game = objectives := by
    rw [objectivesOf, hobjectives]
    exact filter_append_of_new (fun row hrow => hold (hinv.objectives row hrow))
      (game_of_objectives hobj)
  have hplayersOf : playersOf t game = saved.map Prod.fst := by
    rw [playersOf, hplayers]
    exact filter_append_of_new (fun row hrow => hold (hinv.players row hrow))
      (game_of_players hall)
  refine ⟨hins.row, by rwa [hproceduresOf], by rwa [hobjectivesOf], ?_, ?_⟩
  · rw [hplayersOf, List.forall₂_map_left_iff]
    exact hall.imp fun entry item h => h.1
  · rw [hplayersOf, List.forall₂_map_left_iff]
    obtain ⟨hnodup, hdisjoint⟩ := nodup_saved hplayers
    apply forall₂_imp_of_mem hall
    rintro entry hentry item ⟨_, hrows⟩
    have hweaponsOf : weaponsOf t entry.1.pk = entry.2 := by
      rw [weaponsOf, hweapons, List.filter_append, List.filter_eq_nil_iff.mpr, List.nil_append]
      · exact filter_flatMap_of_mem hnodup (player_of_weapons hall) hentry
      · intro w hw
        obtain ⟨p, hp, hpk⟩ := hinv.weapons w hw
        rw [← hpk]
        simpa using hdisjoint p hp entry hentry
    rwa [hweaponsOf]

/-- A save leaves the rows of the games before it as they are. -/
theorem stored_of_stored {g : Game} {d : GameData} (hg : g ∈ t₀.games.rows)
    (hins : Inserted t₀ server data game)
    (hsaved : Saved t₀ t game (data.coopProcedures.getD []) (data.coopObjectives.getD [])
      (data.players.getD [])) (hstored : Stored t₀ g d) : Stored t g d := by
  obtain ⟨_, ⟨procedures, hprocedures, hproc⟩, ⟨objectives, hobjectives, hobj⟩,
    saved, hplayers, hweapons, hall⟩ := hsaved
  have hne : game.pk ≠ g.pk := by
    rw [hins.pk]
    exact (t₀.games.lt_nextPk hg).ne'
  have hproceduresOf : proceduresOf t g = proceduresOf t₀ g := by
    rw [proceduresOf, hprocedures]
    exact filter_append_of_old fun row hrow => game_of_procedures hproc row hrow ▸ hne
  have hobjectivesOf : objectivesOf t g = objectivesOf t₀ g := by
    rw [objectivesOf, hobjectives]
    exact filter_append_of_old fun row hrow => game_of_objectives hobj row hrow ▸ hne
  have hplayersOf : playersOf t g = playersOf t₀ g := by
    rw [playersOf, hplayers]
    exact filter_append_of_old fun row hrow => game_of_players hall row hrow ▸ hne
  refine ⟨hstored.row, by rw [hproceduresOf]; exact hstored.procedures,
    by rw [hobjectivesOf]; exact hstored.objectives, by rw [hplayersOf]; exact hstored.players, ?_⟩
  rw [hplayersOf]
  apply forall₂_imp_of_mem hstored.weapons
  intro row hrow item hrows
  have hweaponsOf : weaponsOf t row.pk = weaponsOf t₀ row.pk := by
    rw [weaponsOf, hweapons]
    apply filter_append_of_old
    intro w hw
    obtain ⟨entry, hentry, hw⟩ := List.mem_flatMap.mp hw
    rw [player_of_weapons hall entry hentry w hw]
    exact ((nodup_saved hplayers).2 row (List.mem_filter.mp hrow).1 entry hentry).symm
  rwa [hweaponsOf]

theorem invariant_of_saved (hinv : Invariant accepted t₀) (hdata : accepted data)
    (hins : Inserted t₀ server data game)
    (hsaved : Saved t₀ t game (data.coopProcedures.getD []) (data.coopObjectives.getD [])
      (data.players.getD [])) : Invariant accepted t := by
  have hgames : ∀ g, g ∈ t.games.rows ↔ g ∈ t₀.games.rows ∨ g = game := by
    intro g
    rw [hsaved.games, List.mem_append, List.mem_singleton]
  have hgrow : ∀ {k}, (∃ g ∈ t₀.games.rows, g.pk = k) → ∃ g ∈ t.games.rows, g.pk = k := by
    rintro k ⟨g, hg, hpk⟩
    exact ⟨g, (hgames g).mpr (.inl hg), hpk⟩
  have hnew : ∀ {k}, k = game.pk → ∃ g ∈ t.games.rows, g.pk = k := by
    rintro _ rfl
    exact ⟨game, (hgames game).mpr (.inr rfl), rfl⟩
  have htag := hins.row.tag
  refine ⟨?_, ?_, ?_, ?_, ?_, ?_⟩
  · intro g hg g' hg' htags
    obtain hg | rfl := (hgames g).mp hg
    · obtain hg' | rfl := (hgames g').mp hg'
      · exact hinv.tags g hg g' hg' htags
      · exact absurd (htags.trans htag) (hins.untagged g hg)
    · obtain hg' | rfl := (hgames g').mp hg'
      · exact absurd (htags.symm.trans htag) (hins.untagged g' hg')
      · rfl
  · intro g hg
    obtain hg | rfl := (hgames g).mp hg
    · obtain ⟨d, hd, hstored⟩ := hinv.stored g hg
      exact ⟨d, hd, stored_of_stored hg hins hsaved hstored⟩
    · exact ⟨data, hdata, stored_of_saved hinv hins hsaved⟩
  · obtain ⟨rows, hrows, hproc⟩ := hsaved.procedures
    intro row hrow
    rw [hrows] at hrow
    obtain hrow | hrow := List.mem_append.mp hrow
    · exact hgrow (hinv.procedures row hrow)
    · exact hnew (game_of_procedures hproc row hrow)
  · obtain ⟨rows, hrows, hobj⟩ := hsaved.objectives
    intro row hrow
    rw [hrows] at hrow
    obtain hrow | hrow := List.mem_append.mp hrow
    · exact hgrow (hinv.objectives row hrow)
    · exact hnew (game_of_objectives hobj row hrow)
  · obtain ⟨saved, hrows, _, hall⟩ := hsaved.players
    intro row hrow
    rw [hrows] at hrow
    obtain hrow | hrow := List.mem_append.mp hrow
    · exact hgrow (hinv.players row hrow)
    · exact hnew (game_of_players hall row hrow)
  · obtain ⟨saved, hplayers, hweapons, hall⟩ := hsaved.players
    intro w hw
    rw [hweapons] at hw
    rw [hplayers]
    obtain hw | hw := List.mem_append.mp hw
    · obtain ⟨p, hp, hpk⟩ := hinv.weapons w hw
      exact ⟨p, List.mem_append_left _ hp, hpk⟩
    · obtain ⟨entry, hentry, hw⟩ := List.mem_flatMap.mp hw
      refine ⟨entry.1, List.mem_append_right _ (List.mem_map_of_mem hentry), ?_⟩
      exact (player_of_weapons hall entry hentry w hw).symm

end Step

/-- One attempt of a worker at a report, with everything it finds outside the database. `fault`
is the number of statements that succeed before one fails. -/
structure Delivery where
  serverId : ServerId
  data : GameData
  dataReceivedAt : Time
  envs : ℕ → LookupEnv
  fault : Option ℕ

def attempt (outside : External) (e : Delivery) (db : Database) :
    Except (Failure TrackerError) Tasks.TaskOutcome × Session Database :=
  (Tasks.processGameData outside e.envs e.serverId e.data e.dataReceivedAt).exec ⟨db, e.fault⟩

def system (outside : External) : System Database Delivery where
  enabled _ _ := True
  next db e := (attempt outside e db).2.db

theorem exec_createGame (outside : External) (envs : ℕ → LookupEnv) (server : ServerId)
    (data : GameData) (dateFinished : Time) (s : Session Database) :
    (∃ game s', (createGame outside envs server data dateFinished).exec s = (.ok game, s') ∧
      Inserted (gameTables s.db) server data game ∧ Saved (gameTables s.db) (gameTables s'.db) game
        (data.coopProcedures.getD []) (data.coopObjectives.getD []) (data.players.getD [])) ∨
    ∃ e s', (createGame outside envs server data dateFinished).exec s = (.error e, s') ∧
      s'.db = s.db := by
  cases hexec : (createGame outside envs server data dateFinished).exec s with
  | mk result s' =>
    cases result with
    | error e =>
      right
      exact ⟨e, s', rfl, db_of_atomic_error hexec⟩
    | ok game =>
      left
      exact ⟨game, s', rfl, ensures_createGame (gameTables s.db) outside envs server data
        dateFinished s game s' rfl hexec⟩

theorem exec_handleCreateError (e : Failure TrackerError) (s : Session Database) :
    ∃ outcome, (Tasks.handleCreateError e).exec s = (.ok outcome, s) ∧
      ∀ game, outcome ≠ .saved game := by
  unfold Tasks.handleCreateError
  split
  · exact ⟨.alreadySaved, exec_pure _ _, by simp⟩
  · exact ⟨.retry _, exec_pure _ _, by simp⟩

theorem attempt_cases (outside : External) (e : Delivery) (db : Database) :
    (∃ game, (attempt outside e db).1 = .ok (.saved game) ∧
      Inserted (gameTables db) e.serverId e.data game ∧
      Saved (gameTables db) (gameTables (attempt outside e db).2.db) game
        (e.data.coopProcedures.getD []) (e.data.coopObjectives.getD [])
        (e.data.players.getD [])) ∨
    (∀ game, (attempt outside e db).1 ≠ .ok (.saved game)) ∧ (attempt outside e db).2.db = db := by
  rw [attempt, Tasks.processGameData, exec_bind, exec_read]
  obtain hfault | hfault := Decidable.em (e.fault = some 0)
  · rw [if_pos hfault]
    exact .inr ⟨by simp, rfl⟩
  · rw [if_neg hfault]
    cases hserver : db.servers.find? e.serverId with
    | none => exact .inr ⟨by simp [raise], rfl⟩
    | some server =>
      obtain ⟨_, hpk⟩ := Table.find?_eq_some_iff.mp hserver
      simp only [Tasks.createGameOrRetry, exec_rescue, exec_bind]
      obtain ⟨game, s', hexec, hins, hsaved⟩ | ⟨error, s', hexec, hdb⟩ :=
        exec_createGame outside e.envs server.pk e.data e.dataReceivedAt
          ⟨db, e.fault.map (· - 1)⟩
      all_goals rw [hexec]
      · left
        exact ⟨game, rfl, hpk ▸ hins, hsaved⟩
      · right
        obtain ⟨outcome, houtcome, hne⟩ := exec_handleCreateError error s'
        simp only [houtcome]
        exact ⟨fun game h => hne game (by cases h; rfl), hdb⟩

theorem invariant_run {outside : External} {db₀ db : Database} {es : List Delivery}
    (hempty : gameTables db₀ = GameTables.empty) (hrun : Run (system outside) db₀ es db) :
    Invariant (fun data => ∃ e ∈ es, e.data = data) (gameTables db) := by
  have hstep : ∀ db e, e ∈ es →
      Invariant (fun data => ∃ e ∈ es, e.data = data) (gameTables db) →
      (system outside).enabled db e →
      Invariant (fun data => ∃ e ∈ es, e.data = data)
        (gameTables ((system outside).next db e)) := by
    intro db e he hinv _
    obtain ⟨game, _, hins, hsaved⟩ | ⟨_, hdb⟩ := attempt_cases outside e db
    · exact invariant_of_saved hinv ⟨e, he, rfl⟩ hins hsaved
    · change Invariant _ (gameTables (attempt outside e db).2.db)
      rwa [hdb]
  apply hrun.invariant_of_mem hstep
  rw [hempty]
  constructor <;> simp [GameTables.empty]

/-- Every stored game is complete and the only one with its tag, and an attempt that does not
save a game, among them every attempt at a tag that is stored, leaves the database as it was. -/
theorem exactlyOnce_of_run {outside : External} {db₀ db : Database} {es : List Delivery}
    (hempty : gameTables db₀ = GameTables.empty) (hrun : Run (system outside) db₀ es db) :
    (∀ g ∈ db.games.rows, ∀ g' ∈ db.games.rows, g.tag = g'.tag → g = g') ∧
    (∀ g ∈ db.games.rows, ∃ e ∈ es, g.tag = some e.data.tag ∧ Stored (gameTables db) g e.data) ∧
    ∀ e, ((∀ game, (attempt outside e db).1 ≠ .ok (.saved game)) ∨
        ∃ g ∈ db.games.rows, g.tag = some e.data.tag) →
      (attempt outside e db).2.db = db := by
  have hinv := invariant_run hempty hrun
  refine ⟨hinv.tags, ?_, ?_⟩
  · intro g hg
    obtain ⟨_, ⟨e, he, rfl⟩, hstored⟩ := hinv.stored g hg
    exact ⟨e, he, hstored.row.tag, hstored⟩
  · intro e h
    obtain ⟨game, hsaved, hins, _⟩ | ⟨_, hdb⟩ := attempt_cases outside e db
    · obtain h | ⟨g, hg, htag⟩ := h
      · exact absurd hsaved (h game)
      · exact absurd htag (hins.untagged g hg)
    · exact hdb

def sampleWeapon (name : Option Equipment) : WeaponItem := ⟨name, 10, 20, 5, 0, 1, 0, 1500⟩

def sampleData : GameData where
  tag := "5b4f3c2a"
  gametype := .vipEscort
  mapname := "Fairfax Residence"
  outcome := some .swatVipEscape
  time := 600
  playerNum := 1
  scoreSwat := 5
  scoreSus := 3
  victSwat := 1
  victSus := 0
  bombsDefused := 0
  bombsTotal := 0
  players := some [{
    ip := "10.0.0.1".toList
    name := "Serge".toList
    team := .swat
    weapons := some [sampleWeapon (some .coltPython), sampleWeapon none] }]

def sampleDelivery (fault : Option ℕ) : Delivery :=
  ⟨1, sampleData, 1000, fun _ => { whois := some ⟨none, none, 0, 0xFFFFFF⟩, clock := fun _ => 0 },
    fault⟩

def sampleServer : Database :=
  { Database.empty with
    servers := Table.empty.create (fun pk => { pk, ip := 1, port := 10480 }) fun _ => rfl }

/-- An attempt that fails after a few statements, one that succeeds, and a redelivery. -/
def retriedDelivery : List Delivery :=
  [sampleDelivery (some 12), sampleDelivery none, sampleDelivery none]

theorem exactlyOnce_of_retriedDelivery :
    (retriedDelivery.foldl (system plainOutside).next sampleServer).games.rows.map
        (fun g => (g.tag, g.server)) = [(some "5b4f3c2a", 1)] ∧
    (retriedDelivery.foldl (system plainOutside).next sampleServer).weapons.rows.map
        (fun w => (w.player, w.name)) = [(1, .coltPython)] ∧
    ∀ g ∈ (retriedDelivery.foldl (system plainOutside).next sampleServer).games.rows,
      ∃ e ∈ retriedDelivery, g.tag = some e.data.tag ∧
        Stored (gameTables (retriedDelivery.foldl (system plainOutside).next sampleServer)) g
          e.data := by
  have hrun : Run (system plainOutside) sampleServer retriedDelivery
      (retriedDelivery.foldl (system plainOutside).next sampleServer) :=
    .cons trivial (.cons trivial (.cons trivial (.nil _)))
  exact ⟨by decide +kernel, by decide +kernel, (exactlyOnce_of_run rfl hrun).2.1⟩

end GameIngestion

end Swat4Stats
