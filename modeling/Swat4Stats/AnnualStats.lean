import Swat4Stats.ProfileStats
import Swat4Stats.Library.Transition

/-!
# Annual stats and the history of updates

Games are added and the stats of one profile and year are updated in any order. An update only
leaves a trace where a category that it stores has no positive value any more later on.
-/

namespace Swat4Stats

set_option autoImplicit false

open Tx Transition

namespace AnnualStats

open ProfileManager

inductive Event where
  | addGame (game : Game) (players : List (Player × List Weapon))
  | update

def addPlayer (game : GameId) (db : Database) (entry : Player × List Weapon) : Database :=
  { db with
    players := db.players.create (fun pk => { entry.1 with pk, game }) fun _ => rfl
    weapons := db.weapons.createAll (fun row pk => { row with pk }) Weapon.withPk_pk
      (entry.2.map fun weapon => { weapon with player := db.players.nextPk }) }

def addGame (game : Game) (players : List (Player × List Weapon)) (db : Database) : Database :=
  players.foldl (addPlayer db.games.nextPk)
    { db with games := db.games.create (fun pk => { game with pk }) game.withPk_pk }

def update (profile : Profile) (year : ℕ) (db : Database) : Database :=
  ((updateAnnualStatsForProfile profile year).run db).2

def system (profile : Profile) (year : ℕ) : System Database Event where
  enabled _ _ := True
  next db
    | .addGame game players => addGame game players db
    | .update => update profile year db

/-- What a single update over the same games stores into empty tables. -/
def updateFromScratch (profile : Profile) (year : ℕ) (db : Database) : Database :=
  update profile year { db with
    playerStats := UniqueTable.empty
    mapStats := UniqueTable.empty
    gametypeStats := UniqueTable.empty
    serverStats := UniqueTable.empty
    weaponStats := UniqueTable.empty }

/-- Every category and group with a positive value at one of the earlier updates has a positive
value in the end. -/
def NothingLost (profile : Profile) (year : ℕ) (period : Time × Time) (db₀ : Database)
    (es : List Event) (db : Database) : Prop :=
  ∀ fs u, fs ++ [.update] <+: es → Run (system profile year) db₀ fs u →
    ∀ key, annualPoints profile.pk period u key ≠ none →
      annualPoints profile.pk period db key ≠ none

theorem storedPoints_addGame (profile : ProfileId) (year : ℕ) (game : Game)
    (players : List (Player × List Weapon)) (db : Database) :
    storedPoints profile year (addGame game players db) = storedPoints profile year db := by
  have hplayers : ∀ (players : List (Player × List Weapon)) (db : Database) (game : GameId),
      storedPoints profile year (players.foldl (addPlayer game) db) =
        storedPoints profile year db := by
    intro players
    induction players with
    | nil => intro db game; rfl
    | cons entry players ih =>
      intro db game
      rw [List.foldl_cons, ih]
      funext key
      cases key <;> rfl
  rw [addGame, hplayers]
  funext key
  cases key <;> rfl

theorem annualPoints_update (profile : Profile) (year : ℕ) (period : Time × Time)
    (db : Database) :
    annualPoints profile.pk period (update profile year db) =
      annualPoints profile.pk period db := by
  rw [update, updateAnnualStatsForProfile]
  cases _getAnnualPeriodForProfile profile year with
  | none => rfl
  | some period =>
    simp only [run_bind, run_read, saveAnnualStats, run_atomic, run_write]
    funext key
    cases key <;> rfl

section Run

variable {profile : Profile} {year : ℕ} {period : Time × Time} {db₀ db : Database}
  {es : List Event}

theorem storedPoints_update_of_period
    (hperiod : _getAnnualPeriodForProfile profile year = some period) (db : Database)
    (key : StatsKey) :
    storedPoints profile.pk year (update profile year db) key =
      (annualPoints profile.pk period db key).or (storedPoints profile.pk year db key) := by
  rw [update, storedPoints_updateAnnualStats, hperiod]

theorem storedPoints_updateFromScratch
    (hperiod : _getAnnualPeriodForProfile profile year = some period) (db : Database)
    (key : StatsKey) :
    storedPoints profile.pk year (updateFromScratch profile year db) key =
      annualPoints profile.pk period db key := by
  rw [updateFromScratch, storedPoints_update_of_period hperiod]
  have hempty : storedPoints profile.pk year { db with
      playerStats := UniqueTable.empty
      mapStats := UniqueTable.empty
      gametypeStats := UniqueTable.empty
      serverStats := UniqueTable.empty
      weaponStats := UniqueTable.empty } key = none := by
    cases key <;> rfl
  rw [hempty, Option.or_none]
  cases key <;> rfl

theorem storedPoints_ne_none_iff
    (hperiod : _getAnnualPeriodForProfile profile year = some period)
    (hempty : ∀ key, storedPoints profile.pk year db₀ key = none)
    (hrun : Run (system profile year) db₀ es db) (key : StatsKey) :
    storedPoints profile.pk year db key ≠ none ↔
      ∃ fs u, fs ++ [.update] <+: es ∧ Run (system profile year) db₀ fs u ∧
        annualPoints profile.pk period u key ≠ none := by
  induction es using List.reverseRecOn generalizing db with
  | nil =>
    cases Run.nil_iff.mp hrun
    simp [hempty]
  | append_singleton es e ih =>
    obtain ⟨u, hu, hlast⟩ := Run.append_iff.mp hrun
    obtain ⟨_, hdb⟩ := Run.cons_iff.mp hlast
    cases Run.nil_iff.mp hdb
    have hinitial : ∀ fs : List Event, fs ++ [.update] <+: es ++ [e] ↔
        fs ++ [.update] <+: es ∨ fs = es ∧ e = .update := by
      intro fs
      rw [List.prefix_concat_iff]
      constructor
      · rintro (heq | h)
        · obtain ⟨rfl, he⟩ := List.append_inj' heq rfl
          exact .inr ⟨rfl, by simpa using he.symm⟩
        · exact .inl h
      · rintro (h | ⟨rfl, rfl⟩)
        · exact .inr h
        · exact .inl rfl
    cases e with
    | addGame game players =>
      change storedPoints profile.pk year (addGame game players u) key ≠ none ↔ _
      rw [storedPoints_addGame, ih hu]
      simp only [hinitial, reduceCtorEq, and_false, or_false]
    | update =>
      change storedPoints profile.pk year (update profile year u) key ≠ none ↔ _
      rw [storedPoints_update_of_period hperiod, Ne, Option.or_eq_none_iff, not_and_or, ← Ne, ← Ne,
        ih hu]
      simp only [hinitial, and_true]
      constructor
      · rintro (h | ⟨fs, v, hfs, hv, h⟩)
        · exact ⟨es, u, .inr rfl, hu, h⟩
        · exact ⟨fs, v, .inl hfs, hv, h⟩
      · rintro ⟨fs, v, hfs | rfl, hv, h⟩
        · exact .inr ⟨fs, v, hfs, hv, h⟩
        · rw [hu.unique hv]
          exact .inl h

theorem storedPoints_of_no_period (hperiod : _getAnnualPeriodForProfile profile year = none)
    (hrun : Run (system profile year) db₀ es db) :
    storedPoints profile.pk year db = storedPoints profile.pk year db₀ := by
  have hupdate : ∀ db, update profile year db = db := by
    intro db
    rw [update, updateAnnualStatsForProfile, hperiod]
    rfl
  have hstep : ∀ u e, storedPoints profile.pk year u = storedPoints profile.pk year db₀ →
      (system profile year).enabled u e →
      storedPoints profile.pk year ((system profile year).next u e) =
        storedPoints profile.pk year db₀ := by
    intro u e hu _
    cases e with
    | addGame game players => exact (storedPoints_addGame _ _ game players u).trans hu
    | update => exact (congrArg (storedPoints profile.pk year) (hupdate u)).trans hu
  have hinv := Run.invariant (M := system profile year) hstep hrun
  exact hinv rfl

/-- A sequence of updates stores what its last update alone would have stored if and only if no
category has lost its positive value in between. -/
theorem historyIndependent_iff (hempty : ∀ key, storedPoints profile.pk year db₀ key = none)
    (hrun : Run (system profile year) db₀ (es ++ [.update]) db) :
    (∀ key, storedPoints profile.pk year db key =
      storedPoints profile.pk year (updateFromScratch profile year db) key) ↔
    ∀ period, _getAnnualPeriodForProfile profile year = some period →
      NothingLost profile year period db₀ es db := by
  obtain ⟨u, hu, hlast⟩ := Run.append_iff.mp hrun
  obtain ⟨_, hdb⟩ := Run.cons_iff.mp hlast
  cases Run.nil_iff.mp hdb
  change (∀ key, storedPoints profile.pk year (update profile year u) key = _) ↔ _
  cases hperiod : _getAnnualPeriodForProfile profile year with
  | none =>
    have hstored := storedPoints_of_no_period hperiod hrun
    have hscratch : ∀ db, updateFromScratch profile year db = { db with
        playerStats := UniqueTable.empty
        mapStats := UniqueTable.empty
        gametypeStats := UniqueTable.empty
        serverStats := UniqueTable.empty
        weaponStats := UniqueTable.empty } := by
      intro db
      rw [updateFromScratch, update, updateAnnualStatsForProfile, hperiod]
      rfl
    simp only [reduceCtorEq, false_implies, implies_true, iff_true]
    intro key
    refine (congrFun hstored key).trans ((hempty key).trans ?_)
    rw [hscratch]
    cases key <;> rfl
  | some period =>
    simp only [Option.some.injEq, forall_eq']
    have hpoints : annualPoints profile.pk period ((system profile year).next u .update) =
        annualPoints profile.pk period u := annualPoints_update profile year period u
    have hstored := storedPoints_ne_none_iff hperiod hempty hu
    constructor
    · intro heq fs v hfs hv key hkey
      have hsome := (hstored key).mpr ⟨fs, v, hfs, hv, hkey⟩
      have hkeyEq := heq key
      rw [storedPoints_updateFromScratch hperiod, storedPoints_update_of_period hperiod, hpoints]
        at hkeyEq
      rw [hpoints]
      intro hnone
      rw [hnone, Option.or_eq_none_iff] at hkeyEq
      exact hsome hkeyEq.2
    · intro hlost key
      rw [storedPoints_updateFromScratch hperiod, storedPoints_update_of_period hperiod, hpoints]
      cases hnow : annualPoints profile.pk period u key with
      | some points => rfl
      | none =>
        rw [Option.none_or]
        by_contra hne
        obtain ⟨fs, v, hfs, hv, hkey⟩ := (hstored key).mp hne
        apply hlost fs v hfs hv key hkey
        rw [hpoints, hnow]

end Run

def sampleProfile : Profile where
  pk := 1
  name := none

/-- A database with one alias of the profile. -/
def sampleDatabase : Database :=
  { Database.empty with
    aliases := Table.empty.create
      (fun pk => { pk, name := [], profile := 1, isp := none, createdAt := 0, updatedAt := 0 })
      fun _ => rfl }

def newYearGame : Game := { sampleGame with dateFinished := Calendar.yearStart 2024 }

def samplePlayer (score : ℤ) : Player where
  pk := 0
  game := 0
  aliasId := 1
  loadout := 1
  ip := 0
  stats field := if field = .score then score else 0

def gameWithScore (score : ℤ) : Event := .addGame newYearGame [(samplePlayer score, [])]

theorem historyIndependent_of_repeatedUpdate :
    storedPoints 1 2024 ([gameWithScore 10, .update, .update].foldl
      (system sampleProfile 2024).next sampleDatabase) (.player .score) = some 10 ∧
    ∀ key, storedPoints 1 2024 ([gameWithScore 10, .update, .update].foldl
        (system sampleProfile 2024).next sampleDatabase) key =
      storedPoints 1 2024 (updateFromScratch sampleProfile 2024
        ([gameWithScore 10, .update, .update].foldl
          (system sampleProfile 2024).next sampleDatabase)) key := by
  have hrun : Run (system sampleProfile 2024) sampleDatabase
      ([gameWithScore 10, .update] ++ [.update])
      ([gameWithScore 10, .update, .update].foldl
        (system sampleProfile 2024).next sampleDatabase) :=
    .cons trivial (.cons trivial (.cons trivial (.nil _)))
  have hempty : ∀ key, storedPoints sampleProfile.pk 2024 sampleDatabase key = none := by
    intro key
    cases key <;> rfl
  refine ⟨by decide +kernel, (historyIndependent_iff hempty hrun).mpr ?_⟩
  intro period _ fs u hfs hu key hkey
  -- the games are those of the only earlier update
  have hfs' : fs = [gameWithScore 10] := by
    match fs with
    | [] => simp [gameWithScore] at hfs
    | [e] => simpa using hfs
    | e :: f :: fs => simpa [gameWithScore] using hfs.length_le
  subst hfs'
  have hsame : annualPoints sampleProfile.pk period ([gameWithScore 10, .update, .update].foldl
      (system sampleProfile 2024).next sampleDatabase) =
        annualPoints sampleProfile.pk period u := by
    rw [hu.eq_foldl]
    exact (annualPoints_update sampleProfile 2024 period _).trans
      (annualPoints_update sampleProfile 2024 period _)
  rwa [hsame]

/-- A game with ten points, an update, a game with minus twenty points, and the last update: the
ten points stay, where a single update stores none. -/
theorem stale_score_stays :
    ∃ db, Run (system sampleProfile 2024) sampleDatabase
        [gameWithScore 10, .update, gameWithScore (-20), .update] db ∧
      (∀ key, storedPoints 1 2024 sampleDatabase key = none) ∧
      ¬ ∀ key, storedPoints 1 2024 db key =
        storedPoints 1 2024 (updateFromScratch sampleProfile 2024 db) key := by
  refine ⟨_, .cons trivial (.cons trivial (.cons trivial (.cons trivial (.nil _)))), ?_, ?_⟩
  · intro key
    cases key <;> rfl
  · intro h
    have hscore : storedPoints 1 2024 ([gameWithScore 10, .update, gameWithScore (-20),
        .update].foldl (system sampleProfile 2024).next sampleDatabase) (.player .score) ≠
        storedPoints 1 2024 (updateFromScratch sampleProfile 2024
          ([gameWithScore 10, .update, gameWithScore (-20), .update].foldl
            (system sampleProfile 2024).next sampleDatabase)) (.player .score) := by
      decide +kernel
    exact hscore (h (.player .score))

end AnnualStats

end Swat4Stats
