import Swat4Stats.ProfileNames

/-!
# When nothing asks for an update

The watermarks see new aliases, new names of the list, and nothing else. Where `name` itself is
replaced, the list and the vector are stale without being behind, unless the list was to be derived
anew anyway.
-/

namespace Swat4Stats

set_option autoImplicit false

open Tx Transition Watermark

namespace ProfileFreshness

open ProfileManager

structure State where
  db : Database
  now : Time

def initial : State := ⟨Database.empty, 0⟩

/-- The profiles that are updated were selected by a query at some earlier moment, so they may be
any. -/
inductive Event where
  | createAlias (now : Time) (env : LookupEnv) (name : Text) (ip : IPv4) (isp : Option IspId)
      (country : Option String)
  | updatePreferences (now : Time) (pick : ℕ → ℕ) (profileId : ProfileId)
  | denormAliasNames (now : Time) (profileIds : List ProfileId)
  | updateSearchVector (now : Time) (profileIds : List ProfileId)
  /-- The rest of the database changes. -/
  | elsewhere (now : Time) (change : Database → Database)

namespace Event

def now : Event → Time
  | createAlias now _ _ _ _ _ => now
  | updatePreferences now _ _ => now
  | denormAliasNames now _ => now
  | updateSearchVector now _ => now
  | elsewhere now _ => now

def apply (outside : External) (db : Database) : Event → Database
  | createAlias _ env name ip isp country =>
    ((AliasManager.createAlias outside env name ip isp country).run db).2
  | updatePreferences now pick profileId =>
    ((Tasks.updatePlayerPreferencesForProfile pick now profileId).run db).2
  | denormAliasNames now profileIds => ((ProfileManager.denormAliasNames now profileIds).run db).2
  | updateSearchVector now profileIds =>
    ((ProfileManager.updateSearchVector now profileIds).run db).2
  | elsewhere _ change => change db

def Enabled (db : Database) : Event → Prop
  | createAlias now env _ _ _ _ => env.clock 4 = now
  | elsewhere _ change => (change db).aliases.rows = db.aliases.rows ∧
      (change db).profiles.rows = db.profiles.rows
  | _ => True

end Event

def system (outside : External) : System State Event where
  enabled s e := s.now < e.now ∧ e.Enabled s.db
  next s e := ⟨e.apply outside s.db, e.now⟩

/-- A profile gets another name only while its list of names is to be derived anew. -/
def RenamesInTime (s : State) : Event → Prop
  | .updatePreferences _ pick profileId => ∀ p ∈ s.db.profiles.rows, p.pk = profileId →
      Renames pick s.db p → requireDenormNames p
  | _ => True

def HasAlias (db : Database) (p : Profile) : Prop := ∃ a ∈ db.aliases.rows, a.profile = p.pk

/-- `names` is the set of the alias names without the name of the profile. -/
def NamesFresh (db : Database) (p : Profile) : Prop :=
  ∃ names, p.names = some names ∧ names.Nodup ∧ ∀ name, name ∈ names ↔
    (∃ a ∈ db.aliases.rows, a.profile = p.pk ∧ a.name = name) ∧ p.name ≠ some name

def SearchFresh (p : Profile) : Prop := p.search = some (profileSearchVector p.name p.names)

/-- Each derived column is fresh as long as nothing before it is behind. -/
structure UpToDate (db : Database) (p : Profile) : Prop where
  names : requireDenormNames p = false → HasAlias db p → NamesFresh db p
  search : requireDenormNames p = false → requireSearchUpdate p = false → HasAlias db p →
    SearchFresh p

/-- No watermark is ahead of the clock. -/
structure Timely (now : Time) (p : Profile) : Prop where
  aliases : ∀ at' ∈ p.aliasUpdatedAt, at' ≤ now
  names : ∀ at' ∈ p.namesUpdatedAt, at' ≤ now
  search : ∀ at' ∈ p.searchUpdatedAt, at' ≤ now

def Invariant (s : State) : Prop :=
  ∀ p ∈ s.db.profiles.rows, Timely s.now p ∧ UpToDate s.db p

section Profiles

variable {db db' : Database} {p p' : Profile} {now now' : Time}

theorem Timely.mono (h : Timely now p) (hnow : now ≤ now') : Timely now' p where
  aliases at' hat := (h.aliases at' hat).trans hnow
  names at' hat := (h.names at' hat).trans hnow
  search at' hat := (h.search at' hat).trans hnow

theorem UpToDate.congr (h : UpToDate db p)
    (haliases : ∀ name, (∃ a ∈ db'.aliases.rows, a.profile = p.pk ∧ a.name = name) ↔
      ∃ a ∈ db.aliases.rows, a.profile = p.pk ∧ a.name = name) : UpToDate db' p := by
  have hany : HasAlias db' p → HasAlias db p := by
    rintro ⟨a, ha, hp⟩
    obtain ⟨a', ha', hp', _⟩ := (haliases a.name).mp ⟨a, ha, hp, rfl⟩
    exact ⟨a', ha', hp'⟩
  constructor
  · intro hdenorm halias
    obtain ⟨names, hnames, hnodup, hmem⟩ := h.names hdenorm (hany halias)
    refine ⟨names, hnames, hnodup, fun name => ?_⟩
    rw [hmem, haliases]
  · exact fun hdenorm hsearch halias => h.search hdenorm hsearch (hany halias)

/-- A profile whose list of names is to be derived anew is up to date whatever it says. -/
theorem UpToDate.of_behind (h : requireDenormNames p = true) : UpToDate db p where
  names hdenorm := by
    rw [h] at hdenorm
    cases hdenorm
  search hdenorm := by
    rw [h] at hdenorm
    cases hdenorm

/-- The lists and the watermarks are as they were, and so is the name unless the list is behind. -/
theorem UpToDate.rename (h : UpToDate db p) (hpk : p'.pk = p.pk) (hnames : p'.names = p.names)
    (hsearch : p'.search = p.search) (halias : p'.aliasUpdatedAt = p.aliasUpdatedAt)
    (hnamesAt : p'.namesUpdatedAt = p.namesUpdatedAt)
    (hsearchAt : p'.searchUpdatedAt = p.searchUpdatedAt)
    (hname : p'.name = p.name ∨ requireDenormNames p = true) : UpToDate db p' := by
  have hdenorm : requireDenormNames p' = requireDenormNames p := by
    rw [requireDenormNames, requireDenormNames, halias, hnamesAt]
  obtain hname | hbehind := hname
  · have hrequire : requireSearchUpdate p' = requireSearchUpdate p := by
      rw [requireSearchUpdate, requireSearchUpdate, hnamesAt, hsearchAt]
    constructor
    · intro hp' hany
      rw [hdenorm] at hp'
      simp only [HasAlias, NamesFresh, hpk, hnames, hname] at hany ⊢
      exact h.names hp' hany
    · intro hp' hp'' hany
      rw [hdenorm] at hp'
      rw [hrequire] at hp''
      simp only [HasAlias, SearchFresh, hpk, hnames, hname, hsearch] at hany ⊢
      exact h.search hp' hp'' hany
  · exact .of_behind (hdenorm.trans hbehind)

end Profiles

theorem run_createAlias (outside : External) (env : LookupEnv) (name : Text) (ip : IPv4)
    (isp : Option IspId) (country : Option String) (db : Database) :
    ((AliasManager.createAlias outside env name ip isp country).run db).2 = db ∨
      ∃ owner db', ((AliasManager.createAlias outside env name ip isp country).run db).2 = db' ∧
        (∃ a : Alias, db'.aliases.rows = db.aliases.rows ++ [a] ∧ a.profile = owner) ∧
        ∀ p' ∈ db'.profiles.rows, p'.pk ≠ owner ∧ p' ∈ db.profiles.rows ∨
          p'.pk = owner ∧ ∃ p, p' = bumped (env.clock 4) p ∧
            (p ∈ db.profiles.rows ∨ p = { pk := owner, name := some name }) := by
  have hbump : ∀ (owner : ProfileId) (db₁ : Database) (p' : Profile),
      p' ∈ ((bumpAliasUpdatedAt owner (env.clock 4)).run db₁).2.profiles.rows →
      ∃ p ∈ db₁.profiles.rows, p.pk ≠ owner ∧ p' = p ∨
        p.pk = owner ∧ p' = bumped (env.clock 4) p := by
    intro owner db₁ p' hp'
    obtain ⟨profiles, hrun, hrows⟩ := run_bumpAliasUpdatedAt owner (env.clock 4) db₁
    rw [hrun] at hp'
    obtain ⟨p, hp, rfl⟩ := List.mem_map.mp (hrows ▸ hp')
    obtain hpk | hne := eq_or_ne p.pk owner
    · exact ⟨p, hp, .inr ⟨hpk, if_pos hpk⟩⟩
    · exact ⟨p, hp, .inl ⟨hne, if_neg hne⟩⟩
  have hmatch : ((ProfileManager.matchSmart outside env name ip isp country).run db).2 = db :=
    (ProfileManager.keeps_matchSteps (f := id) outside env 0 _).run db
  generalize hresult : (AliasManager.createAlias outside env name ip isp country).run db = result
  simp only [AliasManager.createAlias, matchSmartOrCreate, run_atomic, run_bind] at hresult
  generalize (ProfileManager.matchSmart outside env name ip isp country).run db = matched
    at hmatch hresult
  obtain ⟨_ | _ | owner, db⟩ := matched
  · obtain rfl : _ = result := hresult
    exact .inl rfl
  · obtain rfl : db = _ := hmatch
    obtain rfl : _ = result := hresult
    refine .inr ⟨db.profiles.nextPk, _, rfl, ⟨_, rfl, rfl⟩, fun p' hp' => ?_⟩
    obtain ⟨p, hp, ⟨hne, rfl⟩ | ⟨hpk, rfl⟩⟩ := hbump _ _ p' hp'
    · refine .inl ⟨hne, ?_⟩
      obtain hp | rfl := Table.mem_create.mp hp
      · exact hp
      · exact absurd rfl hne
    · refine .inr ⟨(bumped_pk _ _).trans hpk, p, rfl, ?_⟩
      obtain hp | rfl := Table.mem_create.mp hp
      · exact .inl hp
      · exact .inr rfl
  · obtain rfl : db = _ := hmatch
    obtain rfl : _ = result := hresult
    refine .inr ⟨owner, _, rfl, ⟨_, rfl, rfl⟩, fun p' hp' => ?_⟩
    obtain ⟨p, hp, ⟨hne, rfl⟩ | ⟨hpk, rfl⟩⟩ := hbump _ _ p' hp'
    · exact .inl ⟨hne, hp⟩
    · exact .inr ⟨(bumped_pk _ _).trans hpk, p, rfl, .inl hp⟩

section Steps

variable {outside : External} {s : State} {now : Time}

theorem invariant_createAlias (hinv : Invariant s) (hnow : s.now < now) {env : LookupEnv}
    (hclock : env.clock 4 = now) (name : Text) (ip : IPv4) (isp : Option IspId)
    (country : Option String) :
    Invariant ⟨((AliasManager.createAlias outside env name ip isp country).run s.db).2, now⟩ := by
  obtain hsame | ⟨owner, db', hdb', ⟨a, haliases, howner⟩, hprofiles⟩ :=
    run_createAlias outside env name ip isp country s.db
  · rw [hsame]
    exact fun p hp => ⟨(hinv p hp).1.mono hnow.le, (hinv p hp).2⟩
  · rw [hdb']
    intro p' hp'
    obtain ⟨hne, hp⟩ | ⟨_, p, rfl, hp⟩ := hprofiles p' hp'
    · refine ⟨(hinv p' hp).1.mono hnow.le, (hinv p' hp).2.congr fun name => ?_⟩
      rw [haliases]
      constructor
      · rintro ⟨a', ha', hp, rfl⟩
        obtain ha' | ha' := List.mem_append.mp ha'
        · exact ⟨a', ha', hp, rfl⟩
        · rw [List.mem_singleton.mp ha', howner] at hp
          exact absurd hp.symm hne
      · rintro ⟨a', ha', hp, rfl⟩
        exact ⟨a', List.mem_append_left _ ha', hp, rfl⟩
    · have htimely : Timely s.now p := by
        obtain hp | rfl := hp
        · exact (hinv p hp).1
        · constructor
          · rintro _ ⟨⟩
          · rintro _ ⟨⟩
          · rintro _ ⟨⟩
      have hbumped : bumped now p = { p with aliasUpdatedAt := some now } := by
        rw [bumped, if_pos]
        rw [Option.all_eq_true]
        exact fun at' hat => decide_eq_true ((htimely.aliases at' hat).trans_lt hnow)
      rw [hclock, hbumped]
      have hlater := htimely.mono hnow.le
      refine ⟨⟨?_, hlater.names, hlater.search⟩, .of_behind ?_⟩
      · rintro at' ⟨⟩
        exact le_refl now
      · exact isBehind_some.mpr fun at' hat => (htimely.names at' hat).trans_lt hnow

theorem invariant_updatePreferences (hinv : Invariant s) (hnow : s.now < now) (pick : ℕ → ℕ)
    (profileId : ProfileId)
    (hname : RenamesInTime s (.updatePreferences now pick profileId)) :
    Invariant ⟨((Tasks.updatePlayerPreferencesForProfile pick now profileId).run s.db).2, now⟩ := by
  obtain ⟨profiles, hrun, hprofiles⟩ := run_updatePlayerPreferences pick now profileId s.db
  rw [hrun]
  intro p' hp'
  obtain ⟨p, hp, hpk, hnames, hsearch, halias, hnamesAt, hsearchAt, hsame⟩ := hprofiles p' hp'
  obtain ⟨⟨haliasTime, hnamesTime, hsearchTime⟩, hfresh⟩ := hinv p hp
  refine ⟨Timely.mono ⟨?_, ?_, ?_⟩ hnow.le, ?_⟩
  · rwa [halias]
  · rwa [hnamesAt]
  · rwa [hsearchAt]
  · refine (hfresh.rename hpk hnames hsearch halias hnamesAt hsearchAt ?_).congr fun _ => Iff.rfl
    exact hsame.imp_right fun hrenames => hname p hp hrenames.1 hrenames.2

theorem invariant_denormAliasNames (hinv : Invariant s) (hnow : s.now < now)
    (profileIds : List ProfileId) :
    Invariant ⟨((denormAliasNames now profileIds).run s.db).2, now⟩ := by
  obtain ⟨profiles, hrun, hrows⟩ := run_denormAliasNames now profileIds s.db
  rw [hrun]
  intro p' hp'
  obtain ⟨p, hp, rfl⟩ := List.mem_map.mp (hrows ▸ hp')
  obtain ⟨htimely, hfresh⟩ := hinv p hp
  have hlater := htimely.mono hnow.le
  split
  · refine ⟨⟨hlater.aliases, ?_, hlater.search⟩, ⟨fun _ _ => ?_, fun _ hsearch => ?_⟩⟩
    · rintro at' ⟨⟩
      exact le_refl now
    · refine ⟨_, rfl, (List.nodup_dedup _).filter _, fun name => ?_⟩
      simp only [otherNames, List.mem_filter, mem_uniqueAliasNames, decide_eq_true_eq]
    · have hbehind : isBehind (some now) p.searchUpdatedAt = true :=
        isBehind_some.mpr fun at' hat => (htimely.search at' hat).trans_lt hnow
      rw [requireSearchUpdate, hbehind] at hsearch
      cases hsearch
  · exact ⟨hlater, hfresh.congr fun _ => Iff.rfl⟩

theorem invariant_updateSearchVector (hinv : Invariant s) (hnow : s.now < now)
    (profileIds : List ProfileId) :
    Invariant ⟨((updateSearchVector now profileIds).run s.db).2, now⟩ := by
  obtain ⟨profiles, hrun, hrows⟩ := run_updateSearchVector now profileIds s.db
  rw [hrun]
  intro p' hp'
  obtain ⟨p, hp, rfl⟩ := List.mem_map.mp (hrows ▸ hp')
  obtain ⟨htimely, hfresh⟩ := hinv p hp
  have hlater := htimely.mono hnow.le
  split
  · refine ⟨⟨hlater.aliases, hlater.names, ?_⟩, ⟨hfresh.names, fun _ _ _ => rfl⟩⟩
    rintro at' ⟨⟩
    exact le_refl now
  · exact ⟨hlater, hfresh.congr fun _ => Iff.rfl⟩

theorem invariant_step (hinv : Invariant s) {e : Event} (he : (system outside).enabled s e)
    (hname : RenamesInTime s e) : Invariant ((system outside).next s e) := by
  obtain ⟨hnow, henabled⟩ := he
  cases e with
  | createAlias now env name ip isp country =>
    exact invariant_createAlias hinv hnow henabled name ip isp country
  | updatePreferences now pick profileId =>
    exact invariant_updatePreferences hinv hnow pick profileId hname
  | denormAliasNames now profileIds => exact invariant_denormAliasNames hinv hnow profileIds
  | updateSearchVector now profileIds => exact invariant_updateSearchVector hinv hnow profileIds
  | elsewhere now change =>
    obtain ⟨haliases, hprofiles⟩ := henabled
    intro p hp
    obtain ⟨htimely, hfresh⟩ := hinv p (hprofiles ▸ hp)
    refine ⟨htimely.mono hnow.le, hfresh.congr fun name => ?_⟩
    have hsame : ((system outside).next s (.elsewhere now change)).db.aliases.rows =
        s.db.aliases.rows := haliases
    rw [hsame]

/-- Where no rename comes late, every profile with an alias that no query selects is fresh. -/
theorem fresh_of_run {events : List Event}
    (h : Run ((system outside).restrict RenamesInTime) initial events s) :
    ∀ p ∈ s.db.profiles.rows, HasAlias s.db p → requireDenormNames p = false →
      requireSearchUpdate p = false → NamesFresh s.db p ∧ SearchFresh p := by
  have hinitial : Invariant initial := by
    rintro p ⟨⟩
  have hinv : Invariant s :=
    h.invariant_restrict (fun _ _ hinv he => invariant_step hinv he) hinitial
  intro p hp halias hdenorm hsearch
  exact ⟨(hinv p hp).2.names hdenorm halias, (hinv p hp).2.search hdenorm hsearch halias⟩

end Steps

section Example

def playedBy (aliasIds : List AliasId) (db : Database) : Database :=
  { db with
    games := db.games.create (fun pk => { sampleGame with pk }) fun _ => rfl
    players := aliasIds.foldl (fun players aliasId => players.create
      (fun pk => { pk, game := db.games.nextPk, aliasId, loadout := 1, ip := 7 }) fun _ => rfl)
      db.players }

def aliasAt (now : Time) (name : String) : Event :=
  .createAlias now { clock := fun _ => now } name.toList 7 none none

/-- One player under two names, the second one more often. -/
def twoNames : List Event :=
  [aliasAt 1 "Serge", .elsewhere 2 (playedBy [1]), aliasAt 3 "Gordon",
    .elsewhere 4 (playedBy [2, 2])]

def renamedInTime : List Event :=
  twoNames ++ [.updatePreferences 5 (fun _ => 0) 1, .denormAliasNames 6 [1],
    .updateSearchVector 7 [1]]

def renamedLate : List Event :=
  twoNames ++ [.denormAliasNames 5 [1], .updateSearchVector 6 [1],
    .updatePreferences 7 (fun _ => 0) 1]

instance (outside : External) (s : State) : ∀ e, Decidable ((system outside).enabled s e)
  | .createAlias now env _ _ _ _ =>
    inferInstanceAs (Decidable (s.now < now ∧ env.clock 4 = now))
  | .elsewhere now change => inferInstanceAs (Decidable (s.now < now ∧
      (change s.db).aliases.rows = s.db.aliases.rows ∧
        (change s.db).profiles.rows = s.db.profiles.rows))
  | .updatePreferences now _ _ | .denormAliasNames now _ | .updateSearchVector now _ =>
    inferInstanceAs (Decidable (s.now < now ∧ True))

instance (pick : ℕ → ℕ) (db : Database) (p : Profile) : Decidable (Renames pick db p) :=
  inferInstanceAs (Decidable (∃ leastGameId ∈ fetchFirstPreferredGameIdForProfile p.pk db,
    ∃ name ∈ fetchPreferredNameForProfile (pick 0) p.pk leastGameId db,
      name ≠ [] ∧ p.name ≠ some name))

instance (s : State) : ∀ e, Decidable (RenamesInTime s e)
  | .updatePreferences _ pick profileId => inferInstanceAs (Decidable (∀ p ∈ s.db.profiles.rows,
      p.pk = profileId → Renames pick s.db p → requireDenormNames p))
  | .createAlias _ _ _ _ _ _ | .denormAliasNames _ _ | .updateSearchVector _ _
  | .elsewhere _ _ => inferInstanceAs (Decidable True)

theorem fresh_of_renamedInTime :
    (∃ p ∈ (renamedInTime.foldl (system plainOutside).next initial).db.profiles.rows,
      p.name = some "Gordon".toList ∧ p.names = some ["Serge".toList]) ∧
    ∀ p ∈ (renamedInTime.foldl (system plainOutside).next initial).db.profiles.rows,
      HasAlias (renamedInTime.foldl (system plainOutside).next initial).db p →
      requireDenormNames p = false → requireSearchUpdate p = false →
      NamesFresh (renamedInTime.foldl (system plainOutside).next initial).db p ∧ SearchFresh p :=
  ⟨by decide +kernel, fresh_of_run
    (Run.of_admits (M := (system plainOutside).restrict RenamesInTime) (by decide +kernel))⟩

theorem renamedLate_stale :
    ∃ s, Run (system plainOutside) initial renamedLate s ∧ ∃ p ∈ s.db.profiles.rows,
      HasAlias s.db p ∧ requireDenormNames p = false ∧ requireSearchUpdate p = false ∧
        ¬ NamesFresh s.db p ∧ ¬ SearchFresh p := by
  have hadmits : (system plainOutside).Admits initial renamedLate := by decide +kernel
  have hmem : ∃ p ∈ (renamedLate.foldl (system plainOutside).next initial).db.profiles.rows,
      p.name = some "Gordon".toList ∧ p.names = some ["Gordon".toList] ∧
      p.search = some (profileSearchVector (some "Serge".toList) (some ["Gordon".toList])) ∧
      (∃ a ∈ (renamedLate.foldl (system plainOutside).next initial).db.aliases.rows,
        a.profile = p.pk) ∧
      requireDenormNames p = false ∧ requireSearchUpdate p = false := by
    decide +kernel
  obtain ⟨p, hp, hname, hnames, hsearch, halias, hdenorm, hrequire⟩ := hmem
  refine ⟨_, .of_admits hadmits, p, hp, halias, hdenorm, hrequire, ?_, ?_⟩
  · rintro ⟨names, heq, _, hfresh⟩
    obtain rfl : ["Gordon".toList] = names := Option.some_inj.mp (hnames.symm.trans heq)
    exact ((hfresh "Gordon".toList).mp (by decide)).2 hname
  · rw [SearchFresh, hsearch, hname, hnames]
    decide

end Example

end ProfileFreshness

end Swat4Stats
