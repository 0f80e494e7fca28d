import Swat4Stats.Aggregates
import Mathlib.Data.List.Sort

/-!
# Preferences

The name, country, team and loadout that a profile has used most over its recent games, and
`update_preferences_for_profile`, which overwrites the columns of the profile with them.
-/

namespace Swat4Stats

set_option autoImplicit false

open Tx PlayerQuerySet

namespace ProfileManager

/-- `TRACKER_PREFERRED_GAMES` -/
def preferredGames : ℕ := 25

def fetchFirstPreferredGameIdForProfile (profile : ProfileId) (db : Database) : Option GameId :=
  let players := (forProfile db profile (all db)).insertionSort fun a b => b.player.pk ≤ a.player.pk
  let recentGameIds := (players.map fun row => row.game.pk).take preferredGames
  ((db.games.rows.filter fun g => g.pk ∈ recentGameIds).map Game.pk).min?

/-- The value of the field that most of the counted rows have; which one of several is up to the
database. Null is a value that no row counts for. -/
def fetchPreferredFieldForProfile {β : Type} [DecidableEq β] (field : PlayerRow → Option β)
    (counted : PlayerRow → Bool) (pick : ℕ) (profile : ProfileId) (leastGameId : GameId)
    (db : Database) : Option β :=
  let rows := (forProfile db profile (all db)).filter fun row => leastGameId ≤ row.game.pk
  let values := (rows.map field).dedup
  let num := fun value => rows.countP fun row => field row = value ∧ counted row
  (Table.anyRow pick (values.filter fun value => ∀ other ∈ values, num other ≤ num value)).join

def aliasOf (db : Database) (row : PlayerRow) : Option Alias := db.aliases.find? row.player.aliasId

def countryOf (db : Database) (row : PlayerRow) : Option String :=
  (aliasOf db row).bind fun a => a.isp.bind fun isp => (db.isps.find? isp).bind Isp.country

def fetchPreferredNameForProfile (pick : ℕ) (profile : ProfileId) (leastGameId : GameId)
    (db : Database) : Option Text :=
  fetchPreferredFieldForProfile (fun row => (aliasOf db row).map Alias.name)
    (fun row => (aliasOf db row).isSome) pick profile leastGameId db

def fetchPreferredCountryForProfile (pick : ℕ) (profile : ProfileId) (leastGameId : GameId)
    (db : Database) : Option String :=
  fetchPreferredFieldForProfile (countryOf db) (fun row => (countryOf db row).isSome) pick profile
    leastGameId db

def fetchPreferredTeamForProfile (pick : ℕ) (profile : ProfileId) (leastGameId : GameId)
    (db : Database) : Option Team :=
  fetchPreferredFieldForProfile (fun row => row.player.team) (fun row => row.player.team.isSome)
    pick profile leastGameId db

/-- The loadouts of the VIP are not counted. -/
def fetchPreferredLoadoutForProfile (pick : ℕ) (profile : ProfileId) (leastGameId : GameId)
    (db : Database) : Option LoadoutId :=
  fetchPreferredFieldForProfile (fun row => some row.player.loadout) (fun row => !row.player.vip)
    pick profile leastGameId db

/-- What the profile is saved with; an empty preference leaves the column as it is. -/
def withPreferences (pick : ℕ → ℕ) (now : Time) (leastGameId : GameId) (db : Database)
    (profile : Profile) : Profile :=
  let name := (fetchPreferredNameForProfile (pick 0) profile.pk leastGameId db).filter (· ≠ [])
  let country :=
    (fetchPreferredCountryForProfile (pick 1) profile.pk leastGameId db).filter (· ≠ "")
  let team := (fetchPreferredTeamForProfile (pick 2) profile.pk leastGameId db).or profile.team
  let loadout := fetchPreferredLoadoutForProfile (pick 3) profile.pk leastGameId db
  { profile with
    name := name.or profile.name
    country := country.or profile.country
    team
    teamLegacy := team.map Team.legacy
    loadout := loadout.or profile.loadout
    preferencesUpdatedAt := some now }

/-- The columns in `update_fields`. -/
def savePreferences (saved : Profile) : DbTx Unit :=
  write fun db => { db with
    profiles := db.profiles.update (fun p => p.pk = saved.pk)
      (fun p => { p with
        name := saved.name
        country := saved.country
        team := saved.team
        teamLegacy := saved.teamLegacy
        loadout := saved.loadout
        preferencesUpdatedAt := saved.preferencesUpdatedAt }) fun _ => rfl }

def updatePreferencesForProfile (pick : ℕ → ℕ) (now : Time) (profile : Profile) : DbTx Unit := do
  let leastGameId ← read (fetchFirstPreferredGameIdForProfile profile.pk)
  match leastGameId with
  | none => pure ()
  | some leastGameId => do
    let saved ← read fun db => withPreferences pick now leastGameId db profile
    savePreferences saved

end ProfileManager

namespace Tasks

def updatePlayerPreferencesForProfile (pick : ℕ → ℕ) (now : Time) (profileId : ProfileId) :
    DbTx Unit := do
  let profile ← read fun db => db.profiles.find? profileId
  match profile with
  | some profile => ProfileManager.updatePreferencesForProfile pick now profile
  | none => raise .objectDoesNotExist

end Tasks

namespace ProfileManager

/-- An update would replace the name of the profile by another one. -/
def Renames (pick : ℕ → ℕ) (db : Database) (profile : Profile) : Prop :=
  ∃ leastGameId ∈ fetchFirstPreferredGameIdForProfile profile.pk db,
    ∃ name ∈ fetchPreferredNameForProfile (pick 0) profile.pk leastGameId db,
      name ≠ [] ∧ profile.name ≠ some name

theorem name_withPreferences {pick : ℕ → ℕ} {now : Time} {db : Database} {profile : Profile}
    {leastGameId : GameId} (hleast : fetchFirstPreferredGameIdForProfile profile.pk db =
      some leastGameId) (h : ¬ Renames pick db profile) :
    (withPreferences pick now leastGameId db profile).name = profile.name := by
  simp only [withPreferences]
  cases hname : fetchPreferredNameForProfile (pick 0) profile.pk leastGameId db with
  | none => rfl
  | some name =>
    obtain rfl | hne := eq_or_ne name []
    · rfl
    · rw [Option.filter_some_pos (by simpa using hne), Option.some_or]
      by_contra hrenamed
      exact h ⟨leastGameId, hleast, name, hname, hne, Ne.symm hrenamed⟩

theorem run_updatePlayerPreferences (pick : ℕ → ℕ) (now : Time) (profileId : ProfileId)
    (db : Database) :
    ∃ profiles : Table Profile Profile.pk,
      ((Tasks.updatePlayerPreferencesForProfile pick now profileId).run db).2 =
        { db with profiles } ∧
      ∀ p' ∈ profiles.rows, ∃ p ∈ db.profiles.rows, p'.pk = p.pk ∧ p'.names = p.names ∧
        p'.search = p.search ∧ p'.aliasUpdatedAt = p.aliasUpdatedAt ∧
        p'.namesUpdatedAt = p.namesUpdatedAt ∧ p'.searchUpdatedAt = p.searchUpdatedAt ∧
        (p'.name = p.name ∨ p.pk = profileId ∧ Renames pick db p) := by
  have hsame : ∃ profiles : Table Profile Profile.pk, db = { db with profiles } ∧
      ∀ p' ∈ profiles.rows, ∃ p ∈ db.profiles.rows, p'.pk = p.pk ∧ p'.names = p.names ∧
        p'.search = p.search ∧ p'.aliasUpdatedAt = p.aliasUpdatedAt ∧
        p'.namesUpdatedAt = p.namesUpdatedAt ∧ p'.searchUpdatedAt = p.searchUpdatedAt ∧
        (p'.name = p.name ∨ p.pk = profileId ∧ Renames pick db p) :=
    ⟨db.profiles, rfl, fun p hp => ⟨p, hp, rfl, rfl, rfl, rfl, rfl, rfl, .inl rfl⟩⟩
  simp only [Tasks.updatePlayerPreferencesForProfile, run_bind, run_read]
  cases hfind : db.profiles.find? profileId with
  | none => exact hsame
  | some profile =>
    obtain ⟨hprofile, rfl⟩ := Table.find?_eq_some_iff.mp hfind
    simp only [updatePreferencesForProfile, run_bind, run_read]
    cases hleast : fetchFirstPreferredGameIdForProfile profile.pk db with
    | none => exact hsame
    | some leastGameId =>
      refine ⟨_, rfl, fun p' hp' => ?_⟩
      obtain ⟨p, hp, rfl⟩ := List.mem_map.mp hp'
      refine ⟨p, hp, ?_⟩
      split
      · rename_i hpk
        obtain rfl := db.profiles.eq_of_key_eq hp hprofile (of_decide_eq_true hpk)
        refine ⟨rfl, rfl, rfl, rfl, rfl, rfl, ?_⟩
        obtain hrenames | hkept := Classical.em (Renames pick db p)
        · exact .inr ⟨rfl, hrenames⟩
        · exact .inl (name_withPreferences hleast hkept)
      · exact ⟨rfl, rfl, rfl, rfl, rfl, rfl, .inl rfl⟩

end ProfileManager

end Swat4Stats
